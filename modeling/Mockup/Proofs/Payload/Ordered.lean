import Mockup.Payload.Normal
import Mockup.Proofs.Payload.Renamed
import Mockup.Proofs.Spec.Ordered

/-! What is made of well-formed payloads is ordered: renaming keys keeps members sorted, and the
cells of a row keep the order of the members they are read from. -/

namespace Mockup.Payload

open Json

variable {m : Members} {v : Value}

theorem wellFormed_renameInto {level : Level} {all rest done : Members}
    (hrest : ∀ p ∈ rest, p.2.WellFormed) (hdone : (Value.object done).WellFormed) :
    (Value.object (renameInto level all rest done)).WellFormed := by
  induction rest generalizing done with
  | nil => exact hdone
  | cons p rest ih =>
    obtain ⟨key, v⟩ := p
    obtain ⟨hv, hrest⟩ := List.forall_mem_cons.mp hrest
    simp only [renameInto]
    split
    · split
      · exact ih hrest hdone
      · exact ih hrest (hdone.set _ hv)
    · exact ih hrest (hdone.set _ hv)

theorem wellFormed_rename (level : Level) (h : (Value.object m).WellFormed) :
    (Value.object (rename level m)).WellFormed :=
  wellFormed_renameInto h.members (.object List.Pairwise.nil nofun)

theorem wellFormed_unwrap (h : (Value.object m).WellFormed) :
    (Value.object (unwrap m)).WellFormed := by
  rw [unwrap]
  split
  · next inner hinner =>
    rcases Option.or_eq_some_iff.mp hinner with hinner | ⟨-, hinner⟩ <;> exact h.get? hinner
  · exact h

theorem wellFormed_root {raw : Value} (h : raw.WellFormed) (hm : root raw = .ok m) :
    (Value.object m).WellFormed := by
  cases raw with
  | object _ => exact Except.ok.inj hm ▸ h
  | text t =>
    simp only [root] at hm
    split at hm
    · next hparse => exact Except.ok.inj hm ▸ Value.wellFormed_of_parse hparse
    · cases hm
    · cases hm
  | _ => cases hm

theorem fst_of_cell? {key : String} {c : String × String} (h : cell? key v = some c) :
    c.1 = key := by
  cases v with
  | null => cases h
  | _ =>
    obtain rfl := Option.some.inj h
    rfl

theorem ordered_of_row? {cells : List (String × String)} (hv : v.WellFormed)
    (h : row? v = some cells) : Component.OrderedRow cells := by
  cases v with
  | object m =>
    obtain rfl := Option.some.inj h
    -- a cell has the key of its member, and some members have no cell
    rw [Component.OrderedRow, List.pairwise_filterMap]
    refine List.Pairwise.imp (fun hlt b hb c hc => ?_) hv.sorted
    rwa [fst_of_cell? hb, fst_of_cell? hc]
  | _ => cases h

theorem ordered_of_rows? {rows : List (List (String × String))} (hv : v.WellFormed)
    (h : rows? v = some rows) : ∀ cells ∈ rows, Component.OrderedRow cells := by
  intro cells hcells
  cases v with
  | list vs =>
    obtain rfl := Option.some.inj h
    obtain ⟨w, hw, hrow⟩ := List.mem_filterMap.mp hcells
    exact ordered_of_row? (hv.items w hw) hrow
  | _ => cases h

theorem ordered_of_component? {c : Component} (hv : v.WellFormed) (h : component? v = some c) :
    c.Ordered := by
  intro rows hrows
  cases v with
  | text s =>
    obtain ⟨body, -, rfl⟩ := Option.map_eq_some_iff.mp h
    cases hrows
  | object raw =>
    obtain rfl := Option.some.inj h
    obtain ⟨w, hw, hrows⟩ := Option.bind_eq_some_iff.mp hrows
    exact ordered_of_rows? ((wellFormed_rename .component hv).get? hw) hrows
  | _ => cases h

theorem ordered_of_mem_firstList? (h : (Value.object m).WellFormed) {keys : List String}
    {c : Component} (hc : c ∈ ((firstList? m keys).map componentsOf).getD []) : c.Ordered := by
  cases hlist : firstList? m keys with
  | none => simp [hlist] at hc
  | some vs =>
    rw [hlist] at hc
    obtain ⟨key, -, hkey⟩ := List.exists_of_findSome?_eq_some hlist
    obtain ⟨w, hw, hwlist⟩ := Option.bind_eq_some_iff.mp hkey
    obtain ⟨u, hu, hcomponent⟩ := List.mem_filterMap.mp hc
    cases w with
    | list vs' =>
      obtain rfl := Option.some.inj hwlist
      exact ordered_of_component? ((h.get? hw).items u hu) hcomponent
    | _ => cases hwlist

theorem ordered_placeholder (name goal : String) : (Placeholder.component name goal).Ordered :=
  nofun

theorem ordered_of_screen? {place : Nat} {x : Screen} (hv : v.WellFormed)
    (h : screen? place v = some x) : ∀ c ∈ x.components, c.Ordered := by
  intro c hc
  cases v with
  | text t =>
    obtain ⟨name, -, rfl⟩ := Option.map_eq_some_iff.mp h
    exact List.mem_singleton.mp hc ▸ ordered_placeholder _ _
  | object raw =>
    obtain rfl := Option.some.inj h
    simp only [orPlaceholder] at hc
    split at hc
    · exact List.mem_singleton.mp hc ▸ ordered_placeholder _ _
    · exact ordered_of_mem_firstList? (wellFormed_rename .screen hv) hc
  | _ => cases h

theorem ordered_of_mem_screensFrom {place : Nat} {vs : List Value} (hvs : ∀ v ∈ vs, v.WellFormed)
    {x : Screen} (hx : x ∈ screensFrom place vs) : ∀ c ∈ x.components, c.Ordered := by
  induction vs generalizing place with
  | nil => cases hx
  | cons v vs ih =>
    obtain ⟨hv, hvs⟩ := List.forall_mem_cons.mp hvs
    rw [screensFrom] at hx
    split at hx
    · next y hy =>
      rcases List.mem_cons.mp hx with rfl | hx
      · exact ordered_of_screen? hv hy
      · exact ih hvs hx
    · exact ih hvs hx

theorem wellFormed_of_mem_listAt (h : (Value.object m).WellFormed) (key : String) :
    ∀ v ∈ listAt m key, v.WellFormed := by
  intro v hv
  rw [listAt] at hv
  cases hw : m.get? key with
  | none => simp [hw] at hv
  | some w =>
    rw [hw] at hv
    cases w with
    | list vs => exact (h.get? hw).items v hv
    | _ => cases hv

theorem wellFormed_of_mem_objectAt (h : (Value.object m).WellFormed) (key : String) :
    ∀ v ∈ objectAt m key, v.WellFormed := by
  intro v hv
  rw [objectAt] at hv
  split at hv
  · next o ho =>
    obtain rfl := List.mem_singleton.mp hv
    exact h.get? ho
  · cases hv

theorem wellFormed_of_mem_screenSources (h : (Value.object m).WellFormed) {source : List Value}
    (hs : source ∈ screenSources m) : ∀ v ∈ source, v.WellFormed := by
  simp only [screenSources, List.mem_cons, List.not_mem_nil, or_false] at hs
  rcases hs with rfl | rfl | rfl | rfl | rfl | rfl
  · exact wellFormed_of_mem_listAt h _
  · exact wellFormed_of_mem_listAt h _
  · exact wellFormed_of_mem_objectAt h _
  · exact wellFormed_of_mem_listAt h _
  · intro v hv
    rcases List.mem_append.mp hv with hv | hv
    · exact wellFormed_of_mem_objectAt h _ v hv
    · exact wellFormed_of_mem_listAt h _ v hv
  · intro v hv
    obtain ⟨key, -, hv⟩ := List.mem_flatMap.mp (List.mem_of_mem_filter hv)
    exact wellFormed_of_mem_listAt h key v hv

theorem ordered_of_screens? (h : (Value.object m).WellFormed) {xs : List Screen}
    (hxs : screens? m = some xs) : ∀ x ∈ xs, ∀ c ∈ x.components, c.Ordered := by
  intro x hx
  obtain ⟨source, hmem, hsource⟩ := List.exists_of_findSome?_eq_some hxs
  split at hsource
  · cases hsource
  · next y rest hy =>
    obtain rfl := Option.some.inj hsource
    rw [← hy] at hx
    exact ordered_of_mem_screensFrom (wellFormed_of_mem_screenSources h hmem) hx

theorem ordered_madeUpScreen (ctx : Context) (h : (Value.object m).WellFormed) :
    ∀ c ∈ (madeUpScreen ctx m).components, c.Ordered := by
  intro c hc
  simp only [madeUpScreen] at hc
  split at hc
  · obtain rfl := List.mem_singleton.mp hc
    rw [standIn]
    split <;> nofun
  · exact ordered_of_mem_firstList? h hc

theorem wellFormed_of_metadata? (ctx : Context) (h : (Value.object m).WellFormed) {d : Members}
    (hd : metadata? ctx m = some d) : (Value.object d).WellFormed := by
  have hown : ∀ own ∈ (m.get? "metadata").bind Value.object?, (Value.object own).WellFormed := by
    intro own hmem
    obtain ⟨w, hw, hobject⟩ := Option.bind_eq_some_iff.mp hmem
    cases w with
    | object d' => exact Option.some.inj hobject ▸ h.get? hw
    | _ => cases hobject
  simp only [metadata?] at hd
  split at hd
  · exact hown d hd
  · obtain rfl := Option.some.inj hd
    refine Value.WellFormed.set ?_ _ (Value.wellFormed_texts _)
    cases hm : (m.get? "metadata").bind Value.object? with
    | none => exact .object List.Pairwise.nil nofun
    | some own => exact hown own hm

theorem ordered_specOf (ctx : Context) (h : (Value.object m).WellFormed) :
    (specOf ctx m).Ordered where
  components := by
    intro x hx
    simp only [specOf, keyScreens] at hx
    cases hscreens : screens? m with
    | none =>
      rw [hscreens] at hx
      exact List.mem_singleton.mp hx ▸ ordered_madeUpScreen ctx h
    | some xs =>
      rw [hscreens] at hx
      exact ordered_of_screens? h hscreens x hx
  metadata := fun _ => wellFormed_of_metadata? ctx h

end Mockup.Payload
