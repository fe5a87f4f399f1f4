/-! The script that shows a mock-up in the browser. It is the same in every bundle and reads the
specification from a global variable. -/

namespace Mockup.PageScript

def lines : List String :=
  [
   "(function () \x7b",
   "  \"use strict\";",
   "",
   "  var MAX_NOTIFICATIONS = 3;",
   "  var NOTIFICATION_MS = 4000;",
   "  var spec = window.__PROTOFORGE_SPEC__ || \x7b\x7d;",
   "  var screens = Array.isArray(spec.key_screens) ? spec.key_screens : [];",
   "",
   "  var state = \x7b",
   "    screen: 0,",
   "    forms: \x7b\x7d,",
   "    listAdditions: \x7b\x7d,",
   "    notifications: []",
   "  \x7d;",
   "",
   "  function el(tag, className, text) \x7b",
   "    var node = document.createElement(tag);",
   "    if (className) node.className = className;",
   "    if (text !== undefined && text !== null) node.textContent = String(text);",
   "    return node;",
   "  \x7d",
   "",
   "  function list(items) \x7b",
   "    return Array.isArray(items) ? items : [];",
   "  \x7d",
   "",
   "  function notify(message) \x7b",
   "    var id = Date.now() + Math.random();",
   "    state.notifications.unshift(\x7b id: id, message: message \x7d);",
   "    if (state.notifications.length > MAX_NOTIFICATIONS) \x7b",
   "      state.notifications.length = MAX_NOTIFICATIONS;",
   "    \x7d",
   "    setTimeout(function () \x7b",
   "      dismiss(id);",
   "    \x7d, NOTIFICATION_MS);",
   "    render();",
   "  \x7d",
   "",
   "  function dismiss(id) \x7b",
   "    var remaining = state.notifications.filter(function (n) \x7b",
   "      return n.id !== id;",
   "    \x7d);",
   "    if (remaining.length === state.notifications.length) return;",
   "    state.notifications = remaining;",
   "    render();",
   "  \x7d",
   "",
   "  function go(index) \x7b",
   "    if (index < 0 || index >= screens.length) return;",
   "    state.screen = index;",
   "    render();",
   "  \x7d",
   "",
   "  function actionMessage(label) \x7b",
   "    return \"“\" + label + \"” clicked\";",
   "  \x7d",
   "",
   "  // An action named after a screen also opens it.",
   "  function screenNamed(label) \x7b",
   "    return screens.findIndex(function (s) \x7b",
   "      return s.name && s.name.toLowerCase() === String(label).toLowerCase();",
   "    \x7d);",
   "  \x7d",
   "",
   "  function componentKey(screenIndex, componentIndex) \x7b",
   "    return screenIndex + \":\" + componentIndex;",
   "  \x7d",
   "",
   "  function actionButton(label, primary) \x7b",
   "    var button = el(\"button\", primary ? \"button button--primary\" : \"button\", label);",
   "    button.type = \"button\";",
   "    button.addEventListener(\"click\", function () \x7b",
   "      var target = screenNamed(label);",
   "      if (target >= 0) state.screen = target;",
   "      notify(actionMessage(label));",
   "    \x7d);",
   "    return button;",
   "  \x7d",
   "",
   "  function renderActions(actions, primaryFirst) \x7b",
   "    var row = el(\"div\", \"actions\");",
   "    list(actions).forEach(function (action, i) \x7b",
   "      row.appendChild(actionButton(action, primaryFirst && i === 0));",
   "    \x7d);",
   "    return row;",
   "  \x7d",
   "",
   "  function renderHeader() \x7b",
   "    var header = el(\"header\", \"topbar\");",
   "    header.appendChild(el(\"div\", \"topbar__title\", spec.title || \"Prototype\"));",
   "    var nav = el(\"nav\", \"topbar__nav\");",
   "    screens.forEach(function (screen, i) \x7b",
   "      var link = el(\"button\", i === state.screen ? \"nav-link nav-link--active\" : \"nav-link\", screen.name);",
   "      link.type = \"button\";",
   "      link.addEventListener(\"click\", function () \x7b",
   "        go(i);",
   "      \x7d);",
   "      nav.appendChild(link);",
   "    \x7d);",
   "    header.appendChild(nav);",
   "    return header;",
   "  \x7d",
   "",
   "  function renderForm(component, key) \x7b",
   "    var form = el(\"form\", \"form\");",
   "    var fields = list(component.fields);",
   "    if (fields.length === 0) fields = [\"Name\", \"Email\"];",
   "    fields.forEach(function (field, i) \x7b",
   "      var label = el(\"label\", \"form__field\");",
   "      label.appendChild(el(\"span\", \"form__label\", field));",
   "      var input = el(\"input\", \"form__input\");",
   "      input.name = \"field_\" + i;",
   "      input.placeholder = field;",
   "      var saved = state.forms[key];",
   "      if (saved && saved[field] !== undefined) input.value = saved[field];",
   "      label.appendChild(input);",
   "      form.appendChild(label);",
   "    \x7d);",
   "    var submitLabel = list(component.actions)[0] || \"Submit\";",
   "    var submit = el(\"button\", \"button button--primary\", submitLabel);",
   "    submit.type = \"submit\";",
   "    form.appendChild(submit);",
   "    form.addEventListener(\"submit\", function (event) \x7b",
   "      event.preventDefault();",
   "      var values = \x7b\x7d;",
   "      fields.forEach(function (field, i) \x7b",
   "        values[field] = form.elements[\"field_\" + i].value;",
   "      \x7d);",
   "      state.forms[key] = values;",
   "      notify(actionMessage(submitLabel) + \", saved \" + (component.title || \"form\") + \" locally\");",
   "    \x7d);",
   "    return form;",
   "  \x7d",
   "",
   "  function renderList(component, key) \x7b",
   "    var wrapper = el(\"div\", \"list\");",
   "    var ul = el(\"ul\", \"list__items\");",
   "    list(component.sample_items)",
   "      .concat(state.listAdditions[key] || [])",
   "      .forEach(function (item) \x7b",
   "        ul.appendChild(el(\"li\", \"list__item\", item));",
   "      \x7d);",
   "    wrapper.appendChild(ul);",
   "    var add = el(\"button\", \"button\", \"Add item\");",
   "    add.type = \"button\";",
   "    add.addEventListener(\"click\", function () \x7b",
   "      var value = window.prompt(\"New item\");",
   "      if (value && value.trim()) \x7b",
   "        state.listAdditions[key] = (state.listAdditions[key] || []).concat(value.trim());",
   "        notify(\"Added “\" + value.trim() + \"”\");",
   "      \x7d",
   "    \x7d);",
   "    wrapper.appendChild(add);",
   "    return wrapper;",
   "  \x7d",
   "",
   "  function renderStats(component) \x7b",
   "    var grid = el(\"div\", \"stats\");",
   "    var items = list(component.sample_items);",
   "    items.forEach(function (item) \x7b",
   "      grid.appendChild(el(\"div\", \"stats__tile\", item));",
   "    \x7d);",
   "    return grid;",
   "  \x7d",
   "",
   "  function renderComponent(component, screenIndex, componentIndex) \x7b",
   "    var kind = component.kind || \"custom\";",
   "    var key = componentKey(screenIndex, componentIndex);",
   "    var block = el(\"div\", \"component component--\" + kind);",
   "    if (component.title) \x7b",
   "      block.appendChild(el(kind === \"hero\" ? \"h1\" : \"h3\", \"component__title\", component.title));",
   "    \x7d",
   "    if (component.description) \x7b",
   "      block.appendChild(el(\"p\", \"component__description\", component.description));",
   "    \x7d",
   "",
   "    var actions = list(component.actions);",
   "    if (kind === \"form\") \x7b",
   "      block.appendChild(renderForm(component, key));",
   "      // The first action is the submit button.",
   "      actions = actions.slice(1);",
   "    \x7d else if (kind === \"list\") \x7b",
   "      block.appendChild(renderList(component, key));",
   "    \x7d else if (kind === \"stats\") \x7b",
   "      block.appendChild(renderStats(component));",
   "    \x7d",
   "    if (actions.length > 0) \x7b",
   "      block.appendChild(renderActions(actions, kind === \"hero\" || kind === \"cta\"));",
   "    \x7d",
   "    return block;",
   "  \x7d",
   "",
   "  function renderScreen(screen, index) \x7b",
   "    var section = el(\"section\", \"screen\");",
   "    section.appendChild(el(\"h2\", \"screen__name\", screen.name));",
   "    if (screen.goal) section.appendChild(el(\"p\", \"screen__goal\", screen.goal));",
   "    if (list(screen.primary_actions).length > 0) \x7b",
   "      section.appendChild(renderActions(screen.primary_actions, true));",
   "    \x7d",
   "    if (screen.layout_notes) \x7b",
   "      section.appendChild(el(\"p\", \"screen__notes\", screen.layout_notes));",
   "    \x7d",
   "    var body = el(\"div\", \"screen__components\");",
   "    list(screen.components).forEach(function (component, i) \x7b",
   "      body.appendChild(renderComponent(component, index, i));",
   "    \x7d);",
   "    section.appendChild(body);",
   "    return section;",
   "  \x7d",
   "",
   "  function renderNotifications() \x7b",
   "    var stack = el(\"div\", \"notifications\");",
   "    state.notifications.forEach(function (n) \x7b",
   "      var toast = el(\"div\", \"notification\", n.message);",
   "      toast.addEventListener(\"click\", function () \x7b",
   "        dismiss(n.id);",
   "      \x7d);",
   "      stack.appendChild(toast);",
   "    \x7d);",
   "    return stack;",
   "  \x7d",
   "",
   "  function render() \x7b",
   "    var root = document.getElementById(\"app\");",
   "    if (!root) return;",
   "    root.textContent = \"\";",
   "    root.appendChild(renderHeader());",
   "    var main = el(\"main\", \"main\");",
   "    if (screens.length === 0) \x7b",
   "      main.appendChild(el(\"p\", \"screen__goal\", spec.summary || \"Nothing to show yet.\"));",
   "    \x7d else \x7b",
   "      main.appendChild(renderScreen(screens[state.screen], state.screen));",
   "    \x7d",
   "    root.appendChild(main);",
   "    root.appendChild(renderNotifications());",
   "  \x7d",
   "",
   "  if (document.readyState === \"loading\") \x7b",
   "    document.addEventListener(\"DOMContentLoaded\", render);",
   "  \x7d else \x7b",
   "    render();",
   "  \x7d",
   "\x7d)();"]

def text : String := "\n".intercalate lines ++ "\n"

end Mockup.PageScript
