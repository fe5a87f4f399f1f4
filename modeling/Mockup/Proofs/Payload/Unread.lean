import Mockup.Chat.Reply
import Mockup.Payload.Normal
import Mockup.Proofs.Payload.Renamed

/-! What a payload says beside its specification. The keys of the message are not read for the
specification, so it does not matter what is under them. -/

namespace Mockup.Payload

open Json Reply

variable {level : Level} {m n : Members} {key : String} {keys : List String}

def SameBut (keys : List String) (m n : Members) : Prop := ∀ key ∉ keys, n.get? key = m.get? key

theorem heir?_congr (hm : m.Sorted) (hn : n.Sorted) (h : SameBut keys m n)
    (halias : ∀ p ∈ level.aliases, p.1 ∉ keys) (name : String) :
    heir? level name n = heir? level name m := by
  have hhas {a : String} (ha : (a, name) ∈ level.aliases) : n.has a = m.has a := by
    rw [Members.has, Members.has, h a (halias _ ha)]
  refine Option.ext fun v => ?_
  rw [heir?_eq_some_iff hn, heir?_eq_some_iff hm]
  refine exists_congr fun a => and_congr_right fun ha => ?_
  rw [h a (halias _ ha)]
  exact and_congr_right fun _ => forall_congr' fun b => imp_congr_right fun hb => by rw [hhas hb]

theorem SameBut.rename (h : SameBut keys m n) (hm : m.Sorted) (hn : n.Sorted)
    (halias : ∀ p ∈ level.aliases, p.1 ∉ keys) :
    SameBut keys (rename level m) (Payload.rename level n) := by
  intro key hkey
  cases hlookup : level.aliases.lookup key with
  | some name =>
    rw [Payload.rename, Payload.rename, get?_renameInto_alias hlookup,
      get?_renameInto_alias hlookup]
  | none =>
    rw [get?_rename_eq hlookup hn, get?_rename_eq hlookup hm, h key hkey, heir?_congr hm hn h halias]

theorem firstList?_congr (h : ∀ key ∈ keys, n.get? key = m.get? key) :
    firstList? n keys = firstList? m keys := by
  induction keys with
  | nil => rfl
  | cons key keys ih =>
    obtain ⟨hkey, hkeys⟩ := List.forall_mem_cons.mp h
    have hrest := ih hkeys
    rw [firstList?, firstList?] at hrest
    rw [firstList?, firstList?, List.findSome?_cons, List.findSome?_cons, hkey, hrest]

namespace SameBut

variable (h : SameBut messageKeys m n)

include h

theorem title (ctx : Context) : Payload.title ctx n = Payload.title ctx m := by
  rw [Payload.title, Payload.title, h _ (by decide)]

theorem summary (ctx : Context) : Payload.summary ctx n = Payload.summary ctx m := by
  rw [Payload.summary, Payload.summary, summary?, summary?, h _ (by decide)]

theorem explicitGoal? : Payload.explicitGoal? n = Payload.explicitGoal? m := by
  rw [Payload.explicitGoal?, Payload.explicitGoal?, h _ (by decide)]

theorem screenSources : Payload.screenSources n = Payload.screenSources m := by
  have hlist (key : String) (hkey : key ∉ messageKeys) : listAt n key = listAt m key := by
    rw [listAt, listAt, h key hkey]
  have hobject (key : String) (hkey : key ∉ messageKeys) : objectAt n key = objectAt m key := by
    rw [objectAt, objectAt, h key hkey]
  simp only [Payload.screenSources, componentKeys, List.flatMap_cons, List.flatMap_nil]
  simp (disch := decide) only [hlist, hobject]

theorem keyScreens (ctx : Context) : Payload.keyScreens ctx n = Payload.keyScreens ctx m := by
  have hloose : firstList? n componentKeys = firstList? m componentKeys :=
    firstList?_congr fun key hkey => h key (by revert key; decide)
  simp only [Payload.keyScreens, screens?, h.screenSources, madeUpScreen, standIn, hloose, h.title,
    h.summary, h.explicitGoal?]

theorem specOf (ctx : Context) : Payload.specOf ctx n = Payload.specOf ctx m := by
  have hget (key : String) (hkey : key ∉ messageKeys) : n.get? key = m.get? key := h key hkey
  simp only [Payload.specOf, h.title, h.summary, goal?, h.explicitGoal?, successMetrics,
    h.keyScreens, metadata?]
  simp (disch := decide) only [hget]

theorem specOf_unwrap (hm : m.Sorted) (hn : n.Sorted) (ctx : Context) :
    Payload.specOf ctx (Payload.rename .spec (unwrap n)) =
      Payload.specOf ctx (Payload.rename .spec (unwrap m)) := by
  rw [unwrap, unwrap, h _ (by decide), h _ (by decide)]
  split
  · rfl
  · exact (h.rename hm hn (by decide)).specOf ctx

end SameBut

end Mockup.Payload
