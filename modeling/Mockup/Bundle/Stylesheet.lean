/-! The stylesheet of every bundle. -/

namespace Mockup.Stylesheet

def lines : List String :=
  [
   ":root \x7b",
   "  --pf-font: Inter, system-ui, -apple-system, \"Segoe UI\", sans-serif;",
   "  --pf-text: #0f172a;",
   "  --pf-muted: #64748b;",
   "  --pf-surface: #ffffff;",
   "  --pf-background: #f8fafc;",
   "  --pf-border: #e2e8f0;",
   "  --pf-brand: #4f46e5;",
   "  --pf-brand-dark: #3730a3;",
   "  --pf-radius: 12px;",
   "\x7d",
   "",
   "* \x7b box-sizing: border-box; \x7d",
   "",
   "body \x7b",
   "  margin: 0;",
   "  font-family: var(--pf-font);",
   "  color: var(--pf-text);",
   "  background: var(--pf-background);",
   "  line-height: 1.5;",
   "\x7d",
   "",
   ".topbar \x7b",
   "  display: flex;",
   "  flex-wrap: wrap;",
   "  align-items: center;",
   "  justify-content: space-between;",
   "  gap: 12px;",
   "  padding: 16px 24px;",
   "  background: var(--pf-surface);",
   "  border-bottom: 1px solid var(--pf-border);",
   "\x7d",
   "",
   ".topbar__title \x7b font-weight: 700; \x7d",
   ".topbar__nav \x7b display: flex; flex-wrap: wrap; gap: 8px; \x7d",
   "",
   ".nav-link \x7b",
   "  border: none;",
   "  background: none;",
   "  padding: 6px 12px;",
   "  border-radius: 999px;",
   "  color: var(--pf-muted);",
   "  cursor: pointer;",
   "  font: inherit;",
   "\x7d",
   "",
   ".nav-link--active \x7b background: var(--pf-brand); color: #ffffff; \x7d",
   "",
   ".main, .outline \x7b max-width: 960px; margin: 0 auto; padding: 32px 24px; \x7d",
   "",
   ".screen__name \x7b margin: 0 0 4px; font-size: 1.75rem; \x7d",
   ".screen__goal \x7b margin: 0 0 16px; color: var(--pf-muted); \x7d",
   ".screen__notes \x7b font-size: 0.875rem; color: var(--pf-muted); font-style: italic; \x7d",
   ".screen__components \x7b display: grid; gap: 16px; margin-top: 24px; \x7d",
   "",
   ".component \x7b",
   "  background: var(--pf-surface);",
   "  border: 1px solid var(--pf-border);",
   "  border-radius: var(--pf-radius);",
   "  padding: 20px;",
   "\x7d",
   "",
   ".component--hero \x7b",
   "  background: linear-gradient(135deg, var(--pf-brand), var(--pf-brand-dark));",
   "  color: #ffffff;",
   "  border: none;",
   "  padding: 40px 32px;",
   "\x7d",
   "",
   ".component--hero .component__description \x7b color: rgba(255, 255, 255, 0.85); \x7d",
   ".component--cta \x7b text-align: center; \x7d",
   ".component--note \x7b background: #fffbeb; border-color: #fde68a; \x7d",
   ".component--modal \x7b box-shadow: 0 20px 40px rgba(15, 23, 42, 0.15); \x7d",
   "",
   ".component__title \x7b margin: 0 0 8px; \x7d",
   ".component__description \x7b margin: 0 0 12px; color: var(--pf-muted); \x7d",
   "",
   ".actions, .component__actions \x7b display: flex; flex-wrap: wrap; gap: 8px; margin: 12px 0; \x7d",
   "",
   ".button \x7b",
   "  border: 1px solid var(--pf-border);",
   "  background: var(--pf-surface);",
   "  color: var(--pf-text);",
   "  border-radius: 8px;",
   "  padding: 8px 16px;",
   "  font: inherit;",
   "  cursor: pointer;",
   "\x7d",
   "",
   ".button--primary \x7b background: var(--pf-brand); border-color: var(--pf-brand); color: #ffffff; \x7d",
   ".button:hover \x7b filter: brightness(0.95); \x7d",
   "",
   ".form \x7b display: grid; gap: 12px; \x7d",
   ".form__field \x7b display: grid; gap: 4px; \x7d",
   ".form__label \x7b font-size: 0.875rem; color: var(--pf-muted); \x7d",
   ".form__input \x7b",
   "  padding: 8px 12px;",
   "  border: 1px solid var(--pf-border);",
   "  border-radius: 8px;",
   "  font: inherit;",
   "\x7d",
   "",
   ".list__items \x7b margin: 0 0 12px; padding-left: 20px; \x7d",
   ".list__item \x7b padding: 4px 0; \x7d",
   "",
   ".stats \x7b display: grid; grid-template-columns: repeat(auto-fit, minmax(140px, 1fr)); gap: 12px; \x7d",
   ".stats__tile \x7b padding: 16px; border-radius: 8px; background: var(--pf-background); font-weight: 600; color: var(--pf-brand); \x7d",
   "",
   ".notifications \x7b",
   "  position: fixed;",
   "  right: 24px;",
   "  bottom: 24px;",
   "  display: grid;",
   "  gap: 8px;",
   "  max-width: 320px;",
   "\x7d",
   "",
   ".notification \x7b",
   "  background: var(--pf-text);",
   "  color: #ffffff;",
   "  padding: 12px 16px;",
   "  border-radius: 8px;",
   "  cursor: pointer;",
   "  box-shadow: 0 10px 20px rgba(15, 23, 42, 0.2);",
   "\x7d",
   "",
   ".outline .screen \x7b margin-bottom: 32px; \x7d",
   "",
   "@media (max-width: 640px) \x7b",
   "  .topbar \x7b padding: 12px 16px; \x7d",
   "  .main, .outline \x7b padding: 24px 16px; \x7d",
   "  .component--hero \x7b padding: 28px 20px; \x7d",
   "\x7d"]

def text : String := "\n".intercalate lines ++ "\n"

end Mockup.Stylesheet
