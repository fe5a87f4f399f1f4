import Mockup.Proofs.Json.Spaced
import Mockup.Proofs.Json.Record

/-! Decoders that recover what was written. From the text of a value, compact or indented, a decoder
reads what the value was written for, as long as the value has no more levels than may be read. -/

namespace Mockup.Json

open Reader

variable {α β σ : Type} {x : α} {v : Value}

/-- The decoder reads this from the text of the value, and refuses values that are too deep. -/
def Decoder.Recovers (d : Decoder α) (x : α) (v : Value) : Prop :=
  ∀ sp n depth cs rest, skipSpace cs = v.spaced sp depth ++ rest → Ends rest →
    ReadsIff (v.levels ≤ n) (d.read n cs) x rest

namespace Decoder

variable {d : Decoder α}

theorem Recovers.reads (h : d.Recovers x v) (sp : Spacing) (n depth : Nat) {rest : List Char}
    (hrest : Ends rest) :
    ReadsIff (v.levels ≤ n) (d.read n (v.spaced sp depth ++ rest)) x rest :=
  h sp n depth _ rest (skipSpace_spaced v depth rest) hrest

theorem Recovers.map (h : d.Recovers x v) (f : α → β) : (d.map f).Recovers (f x) v :=
  fun sp n depth cs rest hcs hrest => (h sp n depth cs rest hcs hrest).map f

theorem recovers_scalar (hlevels : v.levels = 0)
    (hread : ∀ sp n depth cs rest, skipSpace cs = v.spaced sp depth ++ rest → Ends rest →
      d.read n cs = .ok (x, rest)) : d.Recovers x v := by
  intro sp n depth cs rest hcs hrest
  exact .of_eq (by rw [hlevels]; exact Nat.zero_le n) (hread sp n depth cs rest hcs hrest)

theorem atValue_eq {c : Char} {cs ds : List Char} {r : Char → Reader α}
    (h : skipSpace cs = c :: ds) : atValue r cs = r c (c :: ds) := by
  rw [atValue, h]

end Decoder

theorem head_integer {n : Int} {c : Char} {cs : List Char} (h : Text.integer n = c :: cs) :
    c = '-' ∨ Text.isDigit c = true := by
  cases n with
  | ofNat n =>
    have hmem : c ∈ Text.digits n := by
      have hdigits : Text.digits n = c :: cs := h
      rw [hdigits]
      exact List.mem_cons_self
    exact .inr (Text.isDigit_of_mem_digits hmem)
  | negSucc n => exact .inl (List.cons.inj h).1.symm

theorem scalar_integer {rest : List Char} (k : Integer) (hrest : Ends rest) :
    ∃ c ds, Text.integer k.val ++ rest = c :: ds ∧ c ≠ '[' ∧ c ≠ '\x7b' ∧
      scalar c ds = .ok (.number (.int k), rest) := by
  obtain ⟨c, ds, hprint⟩ := List.exists_cons_of_ne_nil (Text.integer_ne_nil k.val)
  have hnumber := number_integer hrest k
  have hfirst : c = '-' ∨ Text.isDigit c = true := head_integer hprint
  have hne (b : Char) (hb : b ≠ '-') (hdigit : Text.isDigit b = false) : c ≠ b := by
    rintro rfl
    rcases hfirst with heq | h
    · exact hb heq
    · rw [hdigit] at h
      cases h
  have hnumeral : (c = '-' || Text.isDigit c) = true := by simpa using hfirst
  refine ⟨c, ds ++ rest, by rw [hprint]; rfl, hne _ (by decide) (by decide),
    hne _ (by decide) (by decide), ?_⟩
  rw [hprint, List.cons_append] at hnumber
  unfold scalar
  rw [if_neg (hne _ (by decide) (by decide)), if_neg (hne _ (by decide) (by decide)),
    if_neg (hne _ (by decide) (by decide)), if_neg (hne _ (by decide) (by decide)),
    if_pos hnumeral, Reader.map, hnumber]

section Members

variable {sp : Spacing} {n depth : Nat} {key : String} {rest : List Char}

theorem keyed_reads {r : Reader α} (h : ReadsIff (v.levels ≤ n)
      (r (sp.gap ++ (v.spaced sp depth ++ rest))) x rest) (f : String → α → β) :
    ReadsIff (v.levels ≤ n)
      ((quotedText.andThen fun key => colon.andThen fun _ => r.map (f key))
        (memberText sp depth (key, v) ++ rest)) (f key x) rest := by
  have hpass : (quotedText.andThen fun key => colon.andThen fun _ => r.map (f key))
      (memberText sp depth (key, v) ++ rest) =
        r.map (f key) (sp.gap ++ (v.spaced sp depth ++ rest)) := by
    rw [memberText_append, Reader.andThen, quotedText_quoted]
    rfl
  rw [hpass]
  exact h.map (f key)

theorem skipSpace_afterColon (v : Value) (depth : Nat) (rest : List Char) :
    skipSpace (sp.gap ++ (v.spaced sp depth ++ rest)) = v.spaced sp depth ++ rest :=
  (skipSpace_append sp.isSpace_gap _).trans (skipSpace_spaced v depth rest)

theorem chain_of_set (sp : Spacing) (n depth : Nat) {f : String → β → σ → σ} {member : σ → Reader σ}
    {d : Decoder β} {g : α → Value} {k : α → β}
    (hmember : ∀ s, member s = quotedText.andThen fun key => colon.andThen fun _ =>
      (d.read n).map fun x => f key x s)
    {ps : List (String × α)} (hps : ∀ p ∈ ps, d.Recovers (k p.2) (g p.2)) (s : σ) :
    Chain sp member n depth s (ps.map fun p => (p.1, g p.2))
      (ps.foldl (fun s p => f p.1 (k p.2) s) s) := by
  induction ps generalizing s with
  | nil => exact .nil s
  | cons p ps ih =>
    rw [List.forall_mem_cons] at hps
    refine .cons (fun rest hrest => ?_) (ih hps.2 _)
    rw [hmember]
    exact keyed_reads (hps.1 sp n depth _ rest (skipSpace_afterColon _ depth rest) hrest)
      fun key x => f key x s

theorem chain_freeMember (sp : Spacing) (n depth : Nat) {m : Members}
    (hm : ∀ p ∈ m, Decoder.value.Recovers p.2.normal p.2) :
    Chain sp (freeMember (Reader.value n)) n depth [] m
      (Members.sorted (Value.normalMembers m)) := by
  have hchain := chain_of_set sp n depth (g := id) (k := Value.normal) (f := Members.set)
    (d := Decoder.value) (fun _ => rfl) hm []
  have hmap : m.map (fun p => (p.1, id p.2)) = m := List.map_id' m
  have hfold : m.foldl (fun s p => Members.set p.1 p.2.normal s) [] =
      Members.sorted (Value.normalMembers m) := by
    rw [Members.sorted, Value.normalMembers_eq_map, List.foldl_map]
  rwa [hmap, hfold] at hchain

end Members

namespace Decoder

theorem value_recovers_scalar (hlevels : v.levels = 0)
    (hread : ∀ (sp : Spacing) (depth : Nat) rest, Ends rest →
      ∃ c ds, v.spaced sp depth ++ rest = c :: ds ∧ c ≠ '[' ∧ c ≠ '\x7b' ∧
        scalar c ds = .ok (v, rest)) : value.Recovers v v := by
  refine recovers_scalar hlevels fun sp n depth cs rest hcs hrest => ?_
  obtain ⟨c, ds, htext, hlist, hobject, hvalue⟩ := hread sp depth rest hrest
  have hscalar : Reader.value n cs = scalar c ds :=
    value_scalar (hcs.trans htext) hlist hobject
  exact hscalar.trans hvalue

theorem value_recovers_list {vs : List Value} (h : ∀ w ∈ vs, value.Recovers w.normal w) :
    value.Recovers (Value.list vs).normal (.list vs) := by
  intro sp n depth cs rest hcs hrest
  rw [spaced_list, List.cons_append] at hcs
  refine .nested (o := fun n => Reader.value n cs) (by simp [Value.levels])
    (fun _ => Value.levels_list_le_iff) ⟨_, value_zero hcs rfl⟩ (fun n => ?_) n
  have hbody := items_spaced (g := id) n depth
    (fun w hw rest hrest => (h w hw).reads sp n (depth + 1) hrest) rest
  rw [List.map_id] at hbody
  rw [value_bracket hcs, Value.normal, Value.normalItems_eq_map]
  exact hbody.map Value.list

theorem value_recovers_object {m : Members} (h : ∀ p ∈ m, value.Recovers p.2.normal p.2) :
    value.Recovers (Value.object m).normal (.object m) := by
  intro sp n depth cs rest hcs hrest
  rw [spaced_object, List.cons_append] at hcs
  refine .nested (o := fun n => Reader.value n cs) (by simp [Value.levels])
    (fun _ => Value.levels_object_le_iff) ⟨_, value_zero hcs rfl⟩ (fun n => ?_) n
  rw [value_brace hcs, Value.normal]
  exact (members_text (chain_freeMember sp n _ h) rest).map Value.object

theorem recovers_normal (hreal : v.RealFree) : value.Recovers v.normal v := by
  induction hreal with
  | null =>
    exact value_recovers_scalar rfl fun _ _ _ _ => ⟨_, _, rfl, by decide, by decide, rfl⟩
  | bool b =>
    refine value_recovers_scalar rfl fun _ _ _ _ => ?_
    cases b with
    | true => exact ⟨_, _, rfl, by decide, by decide, rfl⟩
    | false => exact ⟨_, _, rfl, by decide, by decide, rfl⟩
  | text s =>
    refine value_recovers_scalar rfl fun _ _ rest _ => ⟨_, _, rfl, by decide, by decide, ?_⟩
    have hquoted : quotedText.map Value.text (quoted s ++ rest) = .ok (.text s, rest) := by
      rw [Reader.map, quotedText_quoted]
    exact hquoted
  | int k => exact value_recovers_scalar rfl fun _ _ _ hrest => scalar_integer k hrest
  | list _ ih => exact value_recovers_list ih
  | object _ ih => exact value_recovers_object ih

theorem recovers_textAs (wanted : String) (s : String) :
    (textAs wanted).Recovers s (.text s) := by
  refine recovers_scalar rfl fun sp n depth cs rest hcs _ => ?_
  have hread := quotedText_quoted s rest
  exact (atValue_eq hcs).trans hread

theorem recovers_list {d : Decoder α} {g : α → Value} {xs : List α}
    (h : ∀ x ∈ xs, d.Recovers x (g x)) : d.list.Recovers xs (.list (xs.map g)) := by
  intro sp n depth cs rest hcs hrest
  rw [spaced_list, List.cons_append] at hcs
  have hread (n : Nat) : d.list.read n cs = deeper n (fun n => items (d.read n))
      ('[' :: (listBody sp depth (xs.map g) ++ rest)) := atValue_eq hcs
  rw [hread]
  refine .nested (o := fun n => deeper n _ _) (by simp [Value.levels])
    (fun _ => Value.levels_list_le_iff) ⟨_, rfl⟩ (fun n => ?_) n
  have hbody := items_spaced (g := g) (k := id) n depth
    (fun x hx rest hrest => (h x hx).reads sp n (depth + 1) hrest) rest
  rw [List.map_id] at hbody
  have hmap : (∀ v ∈ xs.map g, v.levels ≤ n) ↔ ∀ x ∈ xs, (g x).levels ≤ n := List.forall_mem_map
  exact hbody.congr hmap.symm

theorem recovers_texts (xs : List String) : texts.Recovers xs (.texts xs) :=
  recovers_list fun x _ => recovers_textAs "a string" x

theorem recovers_object {m : Members} (hformed : (Value.object m).WellFormed)
    (hreal : (Value.object m).RealFree) : object.Recovers m (.object m) := by
  have hmembers : ∀ p ∈ m, value.Recovers p.2.normal p.2 := by
    cases hreal with
    | object hreal => exact fun p hp => recovers_normal (hreal p hp)
  have hnormal : Members.sorted (Value.normalMembers m) = m := Value.object.inj hformed.normal_eq
  intro sp n depth cs rest hcs hrest
  rw [spaced_object, List.cons_append] at hcs
  have hread (n : Nat) : object.read n cs =
      deeper n (fun n => members (freeMember (Reader.value n)) [])
        ('\x7b' :: (objectBody sp depth m ++ rest)) := atValue_eq hcs
  rw [hread]
  refine .nested (o := fun n => deeper n _ _) (by simp [Value.levels])
    (fun _ => Value.levels_object_le_iff) ⟨_, rfl⟩ (fun n => ?_) n
  have hchain := chain_freeMember sp n (depth + 1) hmembers
  rw [hnormal] at hchain
  exact members_text hchain rest

theorem setEntry_of_forall_lt {key : String} {m : List (String × α)} (h : ∀ p ∈ m, p.1 < key)
    (x : α) : setEntry key x m = m ++ [(key, x)] := by
  induction m with
  | nil => rfl
  | cons p rest ih =>
    obtain ⟨j, y⟩ := p
    have hj : j < key := h _ List.mem_cons_self
    have hrest := ih fun p hp => h p (List.mem_cons_of_mem _ hp)
    rw [setEntry, if_neg (lt_asymm hj), if_neg hj.ne', hrest]
    rfl

theorem foldl_setEntry {m : List (String × α)} (h : m.Pairwise fun a b => a.1 < b.1) :
    m.foldl (fun s p => setEntry p.1 p.2 s) [] = m := by
  -- from the end, since each entry goes behind those that were set before it
  induction m using List.reverseRecOn with
  | nil => rfl
  | append_singleton m p ih =>
    obtain ⟨hm, -, hlast⟩ := List.pairwise_append.mp h
    rw [List.foldl_concat, ih hm, setEntry_of_forall_lt]
    exact fun q hq => hlast q hq p (List.mem_singleton_self p)

theorem recovers_entries {d : Decoder α} {g : α → Value} {m : List (String × α)}
    (hsorted : m.Pairwise fun a b => a.1 < b.1) (h : ∀ p ∈ m, d.Recovers p.2 (g p.2)) :
    (entries d).Recovers m (.object (m.map fun p => (p.1, g p.2))) := by
  intro sp n depth cs rest hcs hrest
  rw [spaced_object, List.cons_append] at hcs
  have hread (n : Nat) : (entries d).read n cs =
      deeper n (fun n => members (fun m => quotedText.andThen fun key => colon.andThen fun _ =>
        (d.read n).map fun x => setEntry key x m) [])
          ('\x7b' :: (objectBody sp depth (m.map fun p => (p.1, g p.2)) ++ rest)) := atValue_eq hcs
  rw [hread]
  refine .nested (o := fun n => deeper n _ _) (by simp [Value.levels])
    (fun _ => Value.levels_object_le_iff) ⟨_, rfl⟩ (fun n => ?_) n
  have hchain := chain_of_set sp n (depth + 1) (f := setEntry) (k := id) (fun _ => rfl) h []
  simp only [id, foldl_setEntry hsorted] at hchain
  exact members_text hchain rest

theorem recovers_variant {names : List (String × α)} {name : String}
    (h : names.lookup name = some x) : (variant names).Recovers x (.text name) := by
  refine recovers_scalar rfl fun sp n depth cs rest hcs _ => ?_
  have hread : chosen names (quoted name ++ rest) = .ok (x, rest) := by
    simp only [chosen, Reader.andThen, quotedText_quoted, h]
  exact (atValue_eq hcs).trans hread

theorem recovers_optional {d : Decoder α} (h : d.Recovers x v) (hv : v ≠ .null) :
    d.optional.Recovers (some x) v := by
  intro sp n depth cs rest hcs hrest
  obtain ⟨c, ds, hprint, -, -, hn⟩ := exists_start sp v depth
  have hread : d.optional.read n cs = (d.read n).map some cs := by
    simp only [optional, hcs, hprint, List.cons_append]
    split
    · next h => exact absurd (List.cons.inj h).1 (hn hv)
    · rfl
  rw [hread]
  exact (h sp n depth cs rest hcs hrest).map some

theorem recovers_optional_null (d : Decoder α) : d.optional.Recovers none .null := by
  refine recovers_scalar rfl fun sp n depth cs rest hcs _ => ?_
  have hnull : skipSpace cs = 'n' :: 'u' :: 'l' :: 'l' :: rest := hcs
  simp only [optional, hnull]
  rfl

end Decoder

/-- What reading the field does to a record, given what is written for the field of another one:
nothing if the field is left out there, which it has to allow. -/
def Field.Restores (f : Field α) (x s s' : α) : Prop :=
  match f.member? x with
  | none => f.absence ≠ .refused ∧ s' = s
  | some v => ∃ g : α → α, f.update.Recovers g v ∧ g s = s'

namespace Field

variable {key : String} {d : Decoder β} {write : β → Value} {s : α}

theorem restores_required {get : α → β} {set : β → α → α} (h : d.Recovers (get x) (write (get x))) :
    (required key d write get set).Restores x s (set (get x) s) :=
  ⟨set (get x), h.map set, rfl⟩

theorem restores_defaulted {get : α → β} {set : β → α → α}
    (h : d.Recovers (get x) (write (get x))) :
    (defaulted key d write get set).Restores x s (set (get x) s) :=
  ⟨set (get x), h.map set, rfl⟩

theorem restores_optional {get : α → Option β} {set : Option β → α → α}
    (h : ∀ y ∈ get x, d.Recovers y (write y) ∧ write y ≠ .null) (hnone : set none s = s) :
    (optional key d write get set).Restores x s (set (get x) s) := by
  unfold Restores optional
  dsimp only
  cases hget : get x with
  | none => exact ⟨nofun, hnone⟩
  | some y =>
    obtain ⟨hread, hnull⟩ := h y hget
    exact ⟨set (some y), (Decoder.recovers_optional hread hnull).map set, rfl⟩

theorem restores_named {get : α → Option β} {set : Option β → α → α} {back : β → Option β}
    (h : ∀ y ∈ get x, d.optional.Recovers (back y) (write y)) (hnone : set none s = s) :
    (named key d write get set).Restores x s (set ((get x).bind back) s) := by
  unfold Restores named
  dsimp only
  cases hget : get x with
  | none => exact ⟨nofun, hnone⟩
  | some y =>
    have hread := h y hget
    exact ⟨set (back y), hread.map set, rfl⟩

end Field

namespace Record

variable {r : Record α}

def Restores (x : α) : List (Field α) → α → α → Prop
  | [], s, s' => s = s'
  | f :: fs, s, s' => ∃ s₁, f.Restores x s s₁ ∧ Restores x fs s₁ s'

theorem Restores.nil (x s : α) : Restores x [] s s := rfl

theorem Restores.cons {f : Field α} {fs : List (Field α)} {s s₁ s' : α}
    (h : f.Restores x s s₁) (h' : Restores x fs s₁ s') : Restores x (f :: fs) s s' := ⟨s₁, h, h'⟩

theorem readMember_reads {key : String} {f : Field α} {g : α → α} {draft : Draft α} {n depth : Nat}
    {rest : List Char} (hfield : r.field? key = some f) (hnew : key ∉ draft.seen)
    (h : f.update.Recovers g v) (hrest : Ends rest) :
    ReadsIff (v.levels ≤ n) (r.readMember n draft (memberText sp depth (key, v) ++ rest))
      ⟨g draft.result, key :: draft.seen⟩ rest := by
  have hseen : draft.seen.contains key = false := by simpa using hnew
  have hpass : r.readMember n draft (memberText sp depth (key, v) ++ rest) =
      ((f.update.read n).map fun g => (⟨g draft.result, key :: draft.seen⟩ : Draft α))
        (sp.gap ++ (v.spaced sp depth ++ rest)) := by
    rw [memberText_append, readMember, Reader.andThen, quotedText_quoted]
    simp only [hfield, hseen, if_neg Bool.false_ne_true]
    rfl
  rw [hpass]
  exact (h sp n depth _ rest (skipSpace_afterColon v depth rest) hrest).map _

theorem chain_readMember {fs : List (Field α)} (hfields : ∀ f ∈ fs, r.field? f.key = some f)
    (hnodup : (fs.map Field.key).Nodup) {s s' : α} (hrestores : Restores x fs s s')
    {seen : List String} (hnew : ∀ f ∈ fs, f.key ∉ seen) (n depth : Nat) :
    ∃ seen', (∀ f ∈ fs, f.absence = .refused → f.key ∈ seen') ∧ (∀ k ∈ seen, k ∈ seen') ∧
      Chain sp (r.readMember n) n depth ⟨s, seen⟩
        (fs.filterMap fun f => (f.member? x).map fun v => (f.key, v)) ⟨s', seen'⟩ := by
  -- The draft is what the fields before have made of it; each of them has been seen once.
  induction fs generalizing s seen with
  | nil =>
    obtain rfl : s = s' := hrestores
    exact ⟨seen, nofun, fun _ hk => hk, .nil _⟩
  | cons f fs ih =>
    obtain ⟨s₁, hf, hrest⟩ := hrestores
    rw [List.forall_mem_cons] at hfields hnew
    obtain ⟨hfirst, hnodup⟩ := List.nodup_cons.mp hnodup
    rw [List.filterMap_cons]
    unfold Field.Restores at hf
    cases hv : f.member? x with
    | none =>
      rw [hv] at hf
      obtain ⟨hallowed, rfl⟩ := hf
      obtain ⟨seen', hwritten, hkept, hchain⟩ := ih hfields.2 hnodup hrest hnew.2
      have hfirst' : f.absence = .refused → f.key ∈ seen' := fun h => absurd h hallowed
      exact ⟨seen', List.forall_mem_cons.mpr ⟨hfirst', hwritten⟩, hkept, hchain⟩
    | some v =>
      rw [hv] at hf
      obtain ⟨g, hg, rfl⟩ := hf
      have hnew' : ∀ f' ∈ fs, f'.key ∉ f.key :: seen := by
        intro f' hf' hmem
        rcases List.mem_cons.mp hmem with heq | hmem
        · exact hfirst (List.mem_map.mpr ⟨f', hf', heq⟩)
        · exact hnew.2 f' hf' hmem
      obtain ⟨seen', hwritten, hkept, hchain⟩ := ih hfields.2 hnodup hrest hnew'
      rw [List.forall_mem_cons] at hkept
      refine ⟨seen', List.forall_mem_cons.mpr ⟨fun _ => hkept.1, hwritten⟩, hkept.2, ?_⟩
      exact .cons (fun rest hends => readMember_reads hfields.1 hnew.1 hg hends) hchain

/-- A record comes back as what its fields do; as itself, if all of them come back. -/
theorem recovers_decoder {y : α} (hnodup : r.keys.Nodup)
    (hrestores : Restores x r.fields r.blank y) : r.decoder.Recovers y (r.ordered x) := by
  intro sp n depth cs rest hcs hrest
  rw [ordered, spaced_object, List.cons_append] at hcs
  have hread (n : Nat) : r.decoder.read n cs = deeper n (fun n => r.readObject n)
      ('\x7b' :: (objectBody sp depth (r.members x) ++ rest)) := Decoder.atValue_eq hcs
  rw [hread]
  refine .nested (o := fun n => deeper n _ _) (by simp [Value.levels])
    (fun _ => Value.levels_object_le_iff) ⟨_, rfl⟩ (fun n => ?_) n
  -- every field that is written is seen, so none that has to be there is missing at the end
  have hnew : ∀ f ∈ r.fields, f.key ∉ ([] : List String) := fun _ _ => List.not_mem_nil
  obtain ⟨seen, hseen, -, hchain⟩ := chain_readMember (fun f hf => field?_of_mem hnodup hf) hnodup
    hrestores hnew n (depth + 1)
  have hmissing : r.missing? seen = none := missing?_eq_none hseen
  have hmembers := members_text hchain rest
  refine .congr (p := (∀ p ∈ r.members x, p.2.levels ≤ n) ∧ True) ?_ (and_iff_left trivial)
  refine ReadsIff.andThen hmembers (.of_eq trivial ?_)
  simp only [hmissing]

end Record

theorem Decoder.Recovers.decode_spaced {d : Decoder α} (h : d.Recovers x v) (sp : Spacing) :
    (v.levels ≤ maxLevels → d.decode (String.ofList (v.spaced sp 0)) = .ok x) ∧
      (¬ v.levels ≤ maxLevels → ∃ e, d.decode (String.ofList (v.spaced sp 0)) = .error e) := by
  have hread := h.reads sp maxLevels 0 ends_nil
  rw [List.append_nil] at hread
  unfold Decoder.decode
  rw [String.toList_ofList, runAll]
  refine ⟨fun hle => ?_, fun hle => ?_⟩
  · rw [hread.reads hle]
    rfl
  · obtain ⟨e, he⟩ := hread.fails hle
    exact ⟨e, by rw [he]⟩

theorem Decoder.Recovers.decode {d : Decoder α} (h : d.Recovers x v) :
    (v.levels ≤ maxLevels → d.decode v.indented = .ok x) ∧
      (¬ v.levels ≤ maxLevels → ∃ e, d.decode v.indented = .error e) := by
  have hdecode := h.decode_spaced .indented
  rwa [Value.spaced_indented] at hdecode

theorem Decoder.Recovers.decode_compact {d : Decoder α} (h : d.Recovers x v) :
    (v.levels ≤ maxLevels → d.decode v.compact = .ok x) ∧
      (¬ v.levels ≤ maxLevels → ∃ e, d.decode v.compact = .error e) := by
  have hdecode := h.decode_spaced .compact
  rwa [Value.spaced_compact] at hdecode

end Mockup.Json
