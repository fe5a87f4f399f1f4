import Mathlib.Data.List.Forall2
import Mockup.Proofs.Payload.Gaps
import Mockup.Proofs.Payload.Ordered

/-! Which screens a payload gives. The first source with a usable entry gives one screen for each of
its usable entries, in their order; if there is none in any source, one screen is made up. -/

namespace Mockup.Payload

open Json Text

def Usable (v : Value) : Prop := IsFilledText v ∨ v.isObject = true

variable {α β : Type} {v : Value} {m o : Members} {place : Nat}

theorem usable_text_iff {s : String} : Usable (.text s) ↔ isBlankText s = false := by
  constructor
  · rintro (⟨t, ht, hblank⟩ | hobject)
    · cases ht
      exact hblank
    · cases hobject
  · exact fun h => .inl ⟨s, rfl, h⟩

theorem not_usable (hobject : v.isObject = false) (htext : v.text? = none) : ¬ Usable v := by
  rintro (⟨t, rfl, -⟩ | h)
  · cases htext
  · rw [hobject] at h
    cases h

instance : DecidablePred Usable
  | .text _ => decidable_of_iff _ usable_text_iff.symm
  | .object _ => isTrue (.inr rfl)
  | .null | .bool _ | .number _ | .list _ => isFalse (not_usable rfl rfl)

def entriesAt (m : Members) (key : String) : List Value :=
  match m.get? key with
  | some (.list vs) => vs
  | _ => []

def objectsAt (m : Members) (key : String) : List Value :=
  (m.get? key).toList.filter Value.isObject

def looseKeys : List String := ["components", "sections", "widgets", "panels"]

def HoldsList (v : Value) : Prop :=
  ∃ o : Members, v = .object o ∧ ∃ key ∈ looseKeys, ∃ vs, o.get? key = some (.list vs)

theorem bind_list?_eq_some_iff {key : String} {vs : List Value} :
    (m.get? key).bind Value.list? = some vs ↔ m.get? key = some (.list vs) := by
  cases m.get? key with
  | none => simp
  | some v => cases v <;> simp [Value.list?]

theorem isPageLike_iff : isPageLike v = true ↔ HoldsList v := by
  cases v with
  | object o =>
    rw [isPageLike, firstList?, List.findSome?_isSome_iff]
    simp only [Option.isSome_iff_exists, bind_list?_eq_some_iff]
    constructor
    · rintro ⟨key, hkey, vs, hvs⟩
      exact ⟨o, rfl, key, hkey, vs, hvs⟩
    · rintro ⟨o, ho, key, hkey, vs, hvs⟩
      cases ho
      exact ⟨key, hkey, vs, hvs⟩
  | _ =>
    refine iff_of_false Bool.false_ne_true ?_
    rintro ⟨o, ho, -⟩
    cases ho

instance : DecidablePred HoldsList := fun _ => decidable_of_iff _ isPageLike_iff

inductive Source where
  | keyScreens
  | webpages
  | webpage
  | pages
  | mainPage
  | loose
deriving DecidableEq

namespace Source

def all : List Source := [keyScreens, webpages, webpage, pages, mainPage, loose]

theorem mem_all (s : Source) : s ∈ all := by cases s <;> decide

def entries (m : Members) : Source → List Value
  | keyScreens => entriesAt m "key_screens"
  | webpages => entriesAt m "webpages"
  | webpage => objectsAt m "webpage"
  | pages => entriesAt m "pages"
  | mainPage => objectsAt m "main_page" ++ entriesAt m "secondary_pages"
  | loose => (looseKeys.flatMap (entriesAt m)).filter (HoldsList ·)

end Source

theorem listAt_eq_entriesAt (m : Members) (key : String) : listAt m key = entriesAt m key := by
  rw [listAt, entriesAt]
  cases m.get? key with
  | none => rfl
  | some v => cases v <;> rfl

theorem objectAt_eq_objectsAt (m : Members) (key : String) : objectAt m key = objectsAt m key := by
  rw [objectAt, objectsAt]
  cases m.get? key with
  | none => rfl
  | some v => cases v <;> rfl

theorem screenSources_eq_map (m : Members) : screenSources m = Source.all.map (·.entries m) := by
  have hlist : listAt m = entriesAt m := funext (listAt_eq_entriesAt m)
  have hloose : isPageLike = fun v => decide (HoldsList v) := by
    funext v
    rw [Bool.eq_iff_iff, isPageLike_iff, decide_eq_true_iff]
  simp only [screenSources, Source.all, List.map_cons, List.map_nil, Source.entries, hlist, hloose,
    objectAt_eq_objectsAt]
  rfl

theorem eq_none_iff_not_usable {f : Value → Option β} {g : String → β} {h : Members → β}
    (htext : ∀ s, f (.text s) = (filled? s).map g) (hobject : ∀ o, f (.object o) = some (h o))
    (hother : ∀ v, v.isObject = false → v.text? = none → f v = none) :
    f v = none ↔ ¬ Usable v := by
  cases v with
  | text s =>
    rw [htext, Option.map_eq_none_iff, filled?_eq_none_iff, usable_text_iff, Bool.not_eq_false]
  | object o =>
    rw [hobject]
    exact iff_of_false nofun (not_not_intro (.inr rfl))
  | _ => exact iff_of_true (hother _ rfl rfl) (not_usable rfl rfl)

theorem screen?_eq_none_iff (place : Nat) (v : Value) : screen? place v = none ↔ ¬ Usable v :=
  eq_none_iff_not_usable (fun _ => rfl) (fun _ => rfl) fun v hobject htext => by
    cases v with
    | text _ => cases htext
    | object _ => cases hobject
    | _ => rfl

theorem forall₂_filterMap {f : α → Option β} {p : α → Prop} [DecidablePred p]
    (h : ∀ a, f a = none ↔ ¬ p a) (l : List α) :
    List.Forall₂ (fun a b => f a = some b) (l.filter (p ·)) (l.filterMap f) := by
  induction l with
  | nil => exact .nil
  | cons a l ih =>
    cases ha : f a with
    | none =>
      rw [List.filterMap_cons_none ha, List.filter_cons_of_neg (by simpa using (h a).mp ha)]
      exact ih
    | some b =>
      have hp : p a := by
        by_contra hp
        rw [(h a).mpr hp] at ha
        cases ha
      rw [List.filterMap_cons_some ha, List.filter_cons_of_pos (by simpa using hp)]
      exact .cons ha ih

def usableEntries (source : List Value) : List (Value × Nat) :=
  source.zipIdx.filter fun e => Usable e.1

theorem screensFrom_eq_filterMap (place : Nat) (vs : List Value) :
    screensFrom place vs = (vs.zipIdx place).filterMap fun e => screen? e.2 e.1 := by
  induction vs generalizing place with
  | nil => rfl
  | cons v vs ih =>
    rw [screensFrom, ih, List.zipIdx_cons, List.filterMap_cons]
    dsimp only
    cases screen? place v <;> rfl

theorem screensFrom_eq_nil_iff {source : List Value} :
    screensFrom 0 source = [] ↔ ∀ v ∈ source, ¬ Usable v := by
  constructor
  · exact fun h v hv husable => screensFrom_ne_nil hv husable 0 h
  · intro h
    rw [screensFrom_eq_filterMap, List.filterMap_eq_nil_iff]
    exact fun e he => (screen?_eq_none_iff e.2 e.1).mpr (h e.1 (List.fst_mem_of_mem_zipIdx he))

def nameKeys : List String := ["name", "title", "slug", "heading"]

/-- The name of the screen that an entry describes. -/
inductive Named (place : Nat) : Value → String → Prop where
  | text {s name : String} : filled? s = some name → Named place (.text s) name
  | own {o : Members} {name : String} : firstText? o nameKeys = some name →
      Named place (.object o) name
  | numbered {o : Members} : (∀ key ∈ nameKeys, (o.get? key).bind scalarText? = none) →
      Named place (.object o) ("Screen " ++ natural (place + 1))

theorem named_of_screen? {x : Screen} (hv : v.WellFormed) (h : screen? place v = some x) :
    Named place v x.name := by
  cases v with
  | text s =>
    obtain ⟨name, hname, rfl⟩ := Option.map_eq_some_iff.mp h
    exact .text hname
  | object o =>
    obtain rfl := Option.some.inj h
    have hname : firstText? (rename .screen o) nameKeys = firstText? o nameKeys :=
      findSome?_rename (by decide) hv.sorted scalarText?
    dsimp only
    rw [← nameKeys, hname]
    cases ho : firstText? o nameKeys with
    | some name => exact .own ho
    | none => exact .numbered (List.findSome?_eq_none_iff.mp ho)
  | _ => cases h

structure Describes (e : Value × Nat) (x : Screen) : Prop where
  screen : screen? e.2 e.1 = some x
  named : Named e.2 e.1 x.name

theorem describes_screensFrom {source : List Value} (h : ∀ v ∈ source, v.WellFormed) :
    List.Forall₂ Describes (usableEntries source) (screensFrom 0 source) := by
  have hwell : ∀ e ∈ usableEntries source, e.1.WellFormed := fun e he =>
    h e.1 (List.fst_mem_of_mem_zipIdx (List.mem_of_mem_filter he))
  have hscreens := forall₂_filterMap (fun e : Value × Nat => screen?_eq_none_iff e.2 e.1)
    source.zipIdx
  rw [← screensFrom_eq_filterMap] at hscreens
  exact ((List.forall₂_and_left _ _).mpr ⟨hwell, hscreens⟩).imp fun e x h =>
    ⟨h.2, named_of_screen? h.1 h.2⟩

inductive Displays (ctx : Context) (m : Members) : List Screen → Prop where
  | entries {before after : List Source} {source : Source} {xs : List Screen}
      (order : Source.all = before ++ source :: after)
      (unusable : ∀ s ∈ before, ∀ v ∈ s.entries m, ¬ Usable v)
      (usable : ∃ v ∈ source.entries m, Usable v)
      (screens : List.Forall₂ Describes (usableEntries (source.entries m)) xs) : Displays ctx m xs
  | madeUp (unusable : ∀ s : Source, ∀ v ∈ s.entries m, ¬ Usable v) :
      Displays ctx m [madeUpScreen ctx m]

theorem displays_keyScreens (ctx : Context) (hm : (Value.object m).WellFormed) :
    Displays ctx m (keyScreens ctx m) := by
  rw [keyScreens]
  cases h : screens? m with
  | none =>
    rw [screens?, screenSources_eq_map, List.findSome?_map] at h
    refine .madeUp fun s => ?_
    have hs := List.findSome?_eq_none_iff.mp h s s.mem_all
    rw [Function.comp_apply] at hs
    split at hs
    · next hnil => exact screensFrom_eq_nil_iff.mp hnil
    · cases hs
  | some xs =>
    rw [screens?, screenSources_eq_map, List.findSome?_map] at h
    obtain ⟨before, source, after, horder, hsource, hbefore⟩ := List.findSome?_eq_some_iff.mp h
    have hmem : source.entries m ∈ screenSources m := by
      rw [screenSources_eq_map]
      exact List.mem_map_of_mem source.mem_all
    rw [Function.comp_apply] at hsource
    split at hsource
    · cases hsource
    · next x rest hxs =>
      cases hsource
      refine .entries horder (fun s hs => ?_) ?_ ?_
      · have hs := hbefore s hs
        rw [Function.comp_apply] at hs
        split at hs
        · next hnil => exact screensFrom_eq_nil_iff.mp hnil
        · cases hs
      · by_contra hunusable
        simp only [not_exists, not_and] at hunusable
        cases (screensFrom_eq_nil_iff.mpr hunusable).symm.trans hxs
      · exact hxs ▸ describes_screensFrom (wellFormed_of_mem_screenSources hm hmem)

/-- An object payload gives the screens of the first source with a usable entry. -/
theorem displays_normalize {raw : Value} (hraw : raw.WellFormed) (hm : root raw = .ok m)
    (ctx : Context) :
    ∃ s, normalize ctx raw = .ok s ∧ Displays ctx (rename .spec (unwrap m)) s.keyScreens :=
  ⟨_, normalize_ok_iff.mpr ⟨m, hm, rfl⟩,
    displays_keyScreens ctx (wellFormed_rename .spec (wellFormed_unwrap (wellFormed_root hraw hm)))⟩

def webPages : Value :=
  .text ("\x7b\"key_screens\":[null,\" \"],\"pages\":[\"Later\"]," ++
    "\"webpages\":[false,\x7b\x7d,\" Home \"]\x7d")

theorem displays_webPages :
    ∃ m s, root webPages = .ok m ∧ normalize {} webPages = .ok s ∧
      Displays {} (rename .spec (unwrap m)) s.keyScreens ∧
      s.keyScreens.map (·.name) = ["Screen 2", "Home"] := by
  have hroot : root webPages = .ok [("key_screens", .list [.null, .text " "]),
      ("pages", .list [.text "Later"]),
      ("webpages", .list [.bool false, .object [], .text " Home "])] := rfl
  obtain ⟨s, hs, hdisplays⟩ := displays_normalize (.text _) hroot {}
  refine ⟨_, s, hroot, hs, hdisplays, ?_⟩
  obtain rfl := Except.ok.inj hs
  rfl

end Mockup.Payload
