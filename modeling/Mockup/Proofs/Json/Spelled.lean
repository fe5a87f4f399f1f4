import Mockup.Proofs.Json.Members
import Mockup.Proofs.Json.Passed
import Mockup.Proofs.Json.Quoted
import Mockup.Proofs.Text.Trim

/-! What a text that a value is read from looks like. Its strings are whole, and the characters of
the strings in the value stand in it, unless there are escapes. -/

namespace Mockup.Json

open Reader

/-- The character stands in a string or a key of the value. -/
inductive Value.Mentions : Value → Char → Prop where
  | text {s : String} {c : Char} : c ∈ s.toList → Mentions (.text s) c
  | item {vs : List Value} {v : Value} {c : Char} :
      v ∈ vs → Mentions v c → Mentions (.list vs) c
  | key {m : Members} {p : String × Value} {c : Char} :
      p ∈ m → c ∈ p.1.toList → Mentions (.object m) c
  | member {m : Members} {p : String × Value} {c : Char} :
      p ∈ m → Mentions p.2 c → Mentions (.object m) c

/-- A text with whole strings only that ends in a visible character and that has all these
characters in it, or an escape. -/
structure Spelled (p : Char → Prop) (cs : List Char) : Prop where
  scan : Region.between.scan cs = some .between
  ends : ∃ c, cs.getLast? = some c ∧ Text.isBlank c = false
  holds : ∀ c, p c → c ∈ cs ∨ '\\' ∈ cs

namespace Spelled

variable {p q : Char → Prop} {cs ds : List Char}

theorem mono (h : Spelled p cs) (hpq : ∀ c, q c → p c) : Spelled q cs :=
  ⟨h.scan, h.ends, fun c hc => h.holds c (hpq c hc)⟩

theorem append (h : Spelled p cs) (h' : Spelled q ds) :
    Spelled (fun c => p c ∨ q c) (cs ++ ds) where
  scan := by rw [Region.scan_append h.scan, h'.scan]
  ends := by
    obtain ⟨c, hc, hblank⟩ := h'.ends
    exact ⟨c, by rw [List.getLast?_append, hc]; rfl, hblank⟩
  holds c hc := by
    simp only [List.mem_append]
    rcases hc with hc | hc
    · exact (h.holds c hc).imp .inl .inl
    · exact (h'.holds c hc).imp .inr .inr

theorem space {space : List Char} (hspace : ∀ c ∈ space, isSpace c = true) (h : Spelled p cs) :
    Spelled p (space ++ cs) where
  scan := by
    rw [Region.scan_append (Region.scan_between fun c hc => .inl (hspace c hc)), h.scan]
  ends := by
    obtain ⟨c, hc, hblank⟩ := h.ends
    exact ⟨c, by rw [List.getLast?_append, hc]; rfl, hblank⟩
  holds c hc := by
    simp only [List.mem_append]
    exact (h.holds c hc).imp .inr .inr

theorem ne_nil (h : Spelled p cs) : cs ≠ [] := by
  obtain ⟨c, hc, -⟩ := h.ends
  rintro rfl
  cases hc

theorem of_allSolid (hne : cs ≠ []) (h : AllSolid cs) : Spelled (fun _ => False) cs where
  scan := Region.scan_between fun c hc => .inr (h c hc)
  ends := ⟨cs.getLast hne, List.getLast?_eq_some_getLast hne,
    (h _ (List.getLast_mem hne)).not_blank⟩
  holds _ := False.elim

theorem solid {c : Char} (hc : IsSolid c) : Spelled (fun _ => False) [c] :=
  .of_allSolid (List.cons_ne_nil _ _) (List.forall_mem_singleton.mpr hc)

theorem cons {c : Char} (hc : IsSolid c) (h : Spelled p cs) : Spelled p (c :: cs) :=
  ((solid hc).append h).mono fun _ => .inr

end Spelled

section Text

open Region

theorem step_of_hexValue? {c : Char} {n : Nat} (h : Text.hexValue? c = some n) :
    within.step c = some .within := by
  have hrange : '0' ≤ c ∧ c ≤ '9' ∨ 'a' ≤ c ∧ c ≤ 'f' ∨ 'A' ≤ c ∧ c ≤ 'F' := by
    simp only [Text.hexValue?, Bool.and_eq_true, decide_eq_true_eq] at h
    split_ifs at h with hdigit hlower hupper
    · exact .inl hdigit
    · exact .inr (.inl hlower)
    · exact .inr (.inr hupper)
  have hne (d : Char) (hd : ¬ ('0' ≤ d ∧ d ≤ '9' ∨ 'a' ≤ d ∧ d ≤ 'f' ∨ 'A' ≤ d ∧ d ≤ 'F')) :
      c ≠ d := by
    rintro rfl
    exact hd hrange
  have hhigh : ¬ c.toNat < 0x20 := by
    have hzero : '0' ≤ c := by
      rcases hrange with h | h | h
      · exact h.1
      · exact Char.le_trans (by decide) h.1
      · exact Char.le_trans (by decide) h.1
    have hnat : ('0').toNat ≤ c.toNat := hzero
    have hbound : 0x20 ≤ ('0').toNat := by decide
    omega
  rw [step, if_neg (hne _ (by decide)), if_neg (hne _ (by decide)), if_neg hhigh]

theorem scan_of_hexUnit? {a b c d : Char} {n : Nat} (h : hexUnit? a b c d = some n) :
    within.scan [a, b, c, d] = some .within := by
  simp only [hexUnit?, Text.ofHex?, List.foldlM_cons, List.foldlM_nil, Option.bind_eq_bind,
    Option.bind_eq_some_iff, Option.map_eq_some_iff] at h
  obtain ⟨_, ⟨_, ha, -⟩, _, ⟨_, hb, -⟩, _, ⟨_, hc, -⟩, _, ⟨_, hd, -⟩, -⟩ := h
  simp only [scan_cons, step_of_hexValue? ha, step_of_hexValue? hb, step_of_hexValue? hc,
    step_of_hexValue? hd, Option.bind_some]
  rfl

structure Closed (acc cs s rest used : List Char) : Prop
    extends Passed (textBody acc) cs s rest used where
  scan : within.scan used = some .between
  ends : used.getLast? = some '"'
  holds : ∀ c ∈ s, c ∈ acc ∨ c ∈ used ∨ '\\' ∈ used

theorem Closed.step {acc cs s rest used : List Char} {c : Char} (piece : List Char)
    (hread : ∀ es, textBody acc (piece ++ es) = textBody (c :: acc) es)
    (hscan : within.scan piece = some .within) (hc : c ∈ piece ∨ '\\' ∈ piece)
    (h : Closed (c :: acc) cs s rest used) : Closed acc (piece ++ cs) s rest (piece ++ used) where
  text := by rw [h.text, List.append_assoc]
  reads rest' hrest' := by rw [List.append_assoc, hread, h.reads rest' hrest']
  scan := by rw [scan_append hscan, h.scan]
  ends := by rw [List.getLast?_append, h.ends]; rfl
  holds d hd := by
    simp only [List.mem_append]
    rcases h.holds d hd with hacc | hused | hescape
    · rcases List.mem_cons.mp hacc with rfl | hacc
      · exact .inr (hc.imp .inl .inl)
      · exact .inl hacc
    · exact .inr (.inl (.inr hused))
    · exact .inr (.inr (.inr hescape))

theorem textBody_short {c e : Char} (hu : c ≠ 'u') (h : shortEscape? c = some e)
    (acc rest : List Char) : textBody acc ('\\' :: c :: rest) = textBody (e :: acc) rest := by
  rw [textBody, h]
  · exact fun _ _ _ _ _ hc => absurd hc hu
  · exact hu

theorem exists_closed {acc cs s rest : List Char} (h : textBody acc cs = .ok (s, rest)) :
    ∃ used, Closed acc cs s rest used := by
  fun_induction textBody acc cs generalizing s rest
  case case2 =>
    cases h
    exact ⟨['"'], ⟨rfl, fun _ _ => rfl⟩, rfl, rfl, fun c hc => .inl (List.mem_reverse.mp hc)⟩
  case case6 a b c d n hn htrailing hleading e f g k more m hm hpaired ih =>
    obtain ⟨used, hused⟩ := ih h
    refine ⟨_, hused.step ['\\', 'u', a, b, c, d, '\\', 'u', e, f, g, k]
      (fun es => ?_) ?_ (.inr List.mem_cons_self)⟩
    · simp only [List.cons_append, List.nil_append, textBody, hn, hm, htrailing, hleading, hpaired,
        Bool.false_eq_true, if_true, if_false]
    · have hscan : within.scan ['\\', 'u', a, b, c, d] = some .within := scan_of_hexUnit? hn
      have hscan' : within.scan ['\\', 'u', e, f, g, k] = some .within := scan_of_hexUnit? hm
      exact (scan_append hscan ['\\', 'u', e, f, g, k]).trans hscan'
  case case13 a b c d rest' n hn htrailing hleading ih =>
    obtain ⟨used, hused⟩ := ih h
    refine ⟨_, hused.step ['\\', 'u', a, b, c, d] (fun es => ?_) (scan_of_hexUnit? hn)
      (.inr List.mem_cons_self)⟩
    simp only [List.cons_append, List.nil_append, textBody, hn]
    exact (if_neg htrailing).trans (if_neg hleading)
  case case16 c rest' _ hu e he ih =>
    obtain ⟨used, hused⟩ := ih h
    refine ⟨_, hused.step ['\\', c] (textBody_short hu he _) ?_ (.inr List.mem_cons_self)⟩
    have hstep : escape.step c = some .within := if_pos (.inr (by rw [he]; rfl))
    exact (scan_cons _ _ _).trans (congrArg (Option.bind · _) hstep)
  case case19 c rest' hquote _ _ hend hmore hhigh ih =>
    obtain ⟨used, hused⟩ := ih h
    have hslash : c ≠ '\\' := by
      intro hc
      cases rest' with
      | nil => exact hend hc rfl
      | cons d more => exact hmore d more hc rfl
    refine ⟨_, hused.step [c] (textBody_plain hquote hslash hhigh _) ?_ (.inl List.mem_cons_self)⟩
    rw [scan_cons, step, if_neg hquote, if_neg hslash, if_neg hhigh]
    rfl
  all_goals cases h

end Text

theorem passes_quotedText :
    quotedText.Passes fun used s => Spelled (fun c => c ∈ s.toList) used := by
  intro cs s rest h
  unfold quotedText at h
  split at h
  · next body =>
    split at h
    · next text left hbody =>
      cases h
      obtain ⟨used, hused⟩ := exists_closed hbody
      refine ⟨'"' :: used, ⟨by rw [hused.text]; rfl, fun rest' hrest' => ?_⟩, ?_, ?_, ?_⟩
      · simp only [List.cons_append, quotedText, hused.reads rest' hrest']
      · exact hused.scan
      · exact ⟨'"', by rw [List.getLast?_cons, hused.ends]; rfl, by decide⟩
      · intro c hc
        rw [String.toList_ofList] at hc
        rcases hused.holds c hc with hnil | hmem | hescape
        · cases hnil
        · exact .inl (List.mem_cons_of_mem _ hmem)
        · exact .inr (List.mem_cons_of_mem _ hescape)
    · cases h
  · cases h

theorem passes_colon : colon.Passes fun used _ => Spelled (fun _ => False) used := by
  intro cs x rest h
  obtain ⟨space, c, ds, hspace, hhead, rfl, hread⟩ := exists_head colon_skipSpace ⟨_, rfl⟩ h
  rw [colon, skipSpace_cons hhead] at hread
  split at hread
  · cases hread
  · next hcolon =>
    cases hread
    obtain ⟨rfl, rfl⟩ := List.cons.inj hcolon
    have hpassed : Passed colon (':' :: ds) () ds [':'] := .single fun _ => rfl
    exact ⟨space ++ [':'], hpassed.space hspace colon_skipSpace,
      (Spelled.solid (by decide)).space hspace⟩
  · cases hread

section Items

variable {item : Reader Value} {fuel : Nat} {c : Char} {cs rest : List Char} {vs : List Value}

abbrev ItemsSpelled (used : List Char) (vs : List Value) : Prop :=
  Spelled (fun c => ∃ v ∈ vs, v.Mentions c) used

theorem ItemsSpelled.cons {v : Value} {used used' : List Char} (h : Spelled v.Mentions used)
    (h' : ItemsSpelled used' vs) : ItemsSpelled (used ++ used') (v :: vs) :=
  (h.append h').mono fun c ⟨w, hw, hc⟩ => by
    rcases List.mem_cons.mp hw with rfl | hw
    · exact .inl hc
    · exact .inr ⟨w, hw, hc⟩

theorem itemsSpelled_bracket : ItemsSpelled [']'] [] :=
  (Spelled.solid (by decide)).mono fun _ ⟨_, hmem, _⟩ => nomatch hmem

theorem exists_passed_moreItems (hitem : item.Passes fun used v => Spelled v.Mentions used)
    (h : moreItems item fuel cs = .ok (vs, rest)) :
    ∃ used, (∀ fuel', used.length < fuel' → Passed (moreItems item fuel') cs vs rest used) ∧
      ItemsSpelled used vs := by
  induction fuel generalizing cs vs rest with
  | zero => cases h
  | succ fuel ih =>
    obtain ⟨space, c, ds, hspace, hhead, rfl, hread⟩ :=
      exists_head (moreItems_skipSpace item fuel) ⟨_, rfl⟩ h
    by_cases hclose : c = ']'
    · subst hclose
      cases hread
      refine ⟨space ++ [']'], fun fuel' hfuel => ?_, itemsSpelled_bracket.space hspace⟩
      obtain ⟨fuel', rfl⟩ := Nat.exists_eq_add_one_of_ne_zero (Nat.ne_zero_of_lt hfuel)
      exact (Passed.single fun _ => rfl).space hspace (moreItems_skipSpace item fuel')
    by_cases hcomma : c = ','
    · subst hcomma
      -- after a comma there may be space again, and a bracket there is a fault
      obtain ⟨space', d, es, hspace', hhead', rfl, hread'⟩ :=
        exists_head (r := fun es => moreItems item (fuel + 1) (',' :: es))
          (moreItems_comma_skipSpace item fuel) ⟨_, rfl⟩ hread
      by_cases hclose' : d = ']'
      · subst hclose'
        cases hread'
      obtain ⟨v, mid, hv, hmore⟩ :=
        exists_of_andThen ((moreItems_comma hhead' hclose').symm.trans hread')
      obtain ⟨ws, hws, rfl⟩ := exists_of_map hmore
      obtain ⟨used, hpassed, hspelled⟩ := hitem _ v mid hv
      obtain ⟨used', hpassed', hspelled'⟩ := ih hws
      have hboth : ItemsSpelled (used ++ used') (v :: ws) := .cons hspelled hspelled'
      refine ⟨space ++ ',' :: (space' ++ (used ++ used')), fun fuel' hfuel => ?_,
        ((hboth.space hspace').cons (by decide)).space hspace⟩
      obtain ⟨fuel', rfl⟩ := Nat.exists_eq_add_one_of_ne_zero (Nat.ne_zero_of_lt hfuel)
      simp only [List.length_append, List.length_cons] at hfuel
      have hinner := hpassed.andThen (f := fun x => (moreItems item fuel').map (x :: ·))
        ((hpassed' fuel' (by omega)).map (v :: ·))
      have hhere : Passed (fun es => moreItems item (fuel' + 1) (',' :: es)) (d :: es) (v :: ws)
          rest (used ++ used') := hinner.congr hboth.ne_nil fun es => moreItems_comma hhead' hclose'
      exact hhere.comma hspace hspace' (moreItems_skipSpace item fuel')
        (moreItems_comma_skipSpace item fuel')
    · rw [moreItems_other hhead hclose hcomma] at hread
      cases hread

theorem passes_items (hitem : item.Passes fun used v => Spelled v.Mentions used) :
    (items item).Passes ItemsSpelled := by
  intro cs vs rest h
  obtain ⟨space, c, ds, hspace, hhead, rfl, hread⟩ := exists_head (items_skipSpace item) ⟨_, rfl⟩ h
  by_cases hclose : c = ']'
  · subst hclose
    cases hread
    have hpassed : Passed (items item) (']' :: rest) [] rest [']'] := .single fun _ => rfl
    exact ⟨space ++ [']'], hpassed.space hspace (items_skipSpace item),
      itemsSpelled_bracket.space hspace⟩
  · rw [items_cons hhead hclose] at hread
    obtain ⟨v, mid, hv, hmore⟩ := exists_of_andThen hread
    obtain ⟨ws, hws, rfl⟩ := exists_of_map hmore
    obtain ⟨used, hpassed, hspelled⟩ := hitem _ v mid hv
    obtain ⟨used', hpassed', hspelled'⟩ := exists_passed_moreItems hitem hws
    have hboth : ItemsSpelled (used ++ used') (v :: ws) := .cons hspelled hspelled'
    have hmore : Passed (fun r => ((moreItems item (r.length + 1)).map (v :: ·)) r) mid (v :: ws)
        rest used' := .of_fuel fun fuel hfuel => (hpassed' fuel hfuel).map (v :: ·)
    exact ⟨space ++ (used ++ used'),
      ((hpassed.andThen hmore).congr hboth.ne_nil fun es => items_cons hhead hclose).space hspace
        (items_skipSpace item), hboth.space hspace⟩

end Items

section Members

variable {member : Members → Reader Members} {fuel : Nat} {cs rest : List Char} {m s : Members}

abbrev MembersSpelled (s : Members) (used : List Char) (m : Members) : Prop :=
  Spelled (fun c => (Value.object m).Mentions c ∧ ¬ (Value.object s).Mentions c) used

theorem MembersSpelled.append {n : Members} {used used' : List Char} (h : MembersSpelled s used m)
    (h' : MembersSpelled m used' n) : MembersSpelled s (used ++ used') n :=
  (Spelled.append h h').mono fun c ⟨hn, hs⟩ => by
    by_cases hm : (Value.object m).Mentions c
    · exact .inl ⟨hm, hs⟩
    · exact .inr ⟨hn, hm⟩

theorem membersSpelled_brace (s : Members) : MembersSpelled s ['\x7d'] s :=
  (Spelled.solid (by decide)).mono fun _ ⟨h, hnot⟩ => hnot h

theorem passes_freeMember {value : Reader Value}
    (hvalue : value.Passes fun used v => Spelled v.Mentions used) (s : Members) :
    (freeMember value s).Passes (MembersSpelled s) := by
  have hkeyed (key : String) : (value.map fun v => Members.set key v s).Passes fun used m =>
      Spelled (fun c => (Value.object m).Mentions c ∧ ¬ (Value.object s).Mentions c ∧
        c ∉ key.toList) used := by
    refine hvalue.map fun used v hv => hv.mono ?_
    rintro c ⟨hm, hs, hkey⟩
    cases hm with
    | key hp hc =>
      rcases Members.mem_set hp with rfl | hp
      · exact absurd hc hkey
      · exact absurd (.key hp hc) hs
    | member hp hc =>
      rcases Members.mem_set hp with rfl | hp
      · exact hc
      · exact absurd (.member hp hc) hs
  refine passes_quotedText.andThen (fun key => passes_colon.andThen (fun _ => hkeyed key)
    (R := fun used m => Spelled (fun c => (Value.object m).Mentions c ∧
      ¬ (Value.object s).Mentions c ∧ c ∉ key.toList) used)
    fun _ _ _ _ h h' => (h.append h').mono fun _ => .inr) fun _ key _ m h h' => ?_
  refine (h.append h').mono fun c ⟨hm, hs⟩ => ?_
  by_cases hkey : c ∈ key.toList
  · exact .inl hkey
  · exact .inr ⟨hm, hs, hkey⟩

theorem exists_passed_moreMembers (hmember : ∀ s, (member s).Passes (MembersSpelled s))
    (h : moreMembers member fuel s cs = .ok (m, rest)) :
    ∃ used, (∀ fuel', used.length < fuel' → Passed (moreMembers member fuel' s) cs m rest used) ∧
      MembersSpelled s used m := by
  induction fuel generalizing s cs with
  | zero => cases h
  | succ fuel ih =>
    obtain ⟨space, c, ds, hspace, hhead, rfl, hread⟩ :=
      exists_head (moreMembers_skipSpace member s fuel) ⟨_, rfl⟩ h
    by_cases hclose : c = '\x7d'
    · subst hclose
      cases hread
      refine ⟨space ++ ['\x7d'], fun fuel' hfuel => ?_, (membersSpelled_brace m).space hspace⟩
      obtain ⟨fuel', rfl⟩ := Nat.exists_eq_add_one_of_ne_zero (Nat.ne_zero_of_lt hfuel)
      exact (Passed.single fun _ => rfl).space hspace (moreMembers_skipSpace member m fuel')
    by_cases hcomma : c = ','
    · subst hcomma
      obtain ⟨space', d, es, hspace', hhead', rfl, hread'⟩ :=
        exists_head (r := fun es => moreMembers member (fuel + 1) s (',' :: es))
          (moreMembers_comma_skipSpace member s fuel) ⟨_, rfl⟩ hread
      by_cases hquote : d = '"'
      · subst hquote
        obtain ⟨t, mid, ht, hmore⟩ := exists_of_andThen (r := member s)
          (f := fun s => moreMembers member fuel s) hread'
        obtain ⟨used, hpassed, hspelled⟩ := hmember s _ t mid ht
        obtain ⟨used', hpassed', hspelled'⟩ := ih hmore
        have hboth : MembersSpelled s (used ++ used') m := .append hspelled hspelled'
        refine ⟨space ++ ',' :: (space' ++ (used ++ used')), fun fuel' hfuel => ?_,
          ((hboth.space hspace').cons (by decide)).space hspace⟩
        obtain ⟨fuel', rfl⟩ := Nat.exists_eq_add_one_of_ne_zero (Nat.ne_zero_of_lt hfuel)
        simp only [List.length_append, List.length_cons] at hfuel
        have hinner := hpassed.andThen (f := fun s => moreMembers member fuel' s)
          (hpassed' fuel' (by omega))
        have hhere : Passed (fun es => moreMembers member (fuel' + 1) s (',' :: es)) ('"' :: es) m
            rest (used ++ used') := hinner.congr hboth.ne_nil fun es => rfl
        exact hhere.comma hspace hspace' (moreMembers_skipSpace member s fuel')
          (moreMembers_comma_skipSpace member s fuel')
      · obtain ⟨e, herror⟩ := moreMembers_comma_other hhead' hquote
        rw [herror] at hread'
        cases hread'
    · rw [moreMembers_other hhead hclose hcomma] at hread
      cases hread

theorem passes_members (hmember : ∀ s, (member s).Passes (MembersSpelled s)) (s : Members) :
    (members member s).Passes (MembersSpelled s) := by
  intro cs m rest h
  obtain ⟨space, c, ds, hspace, hhead, rfl, hread⟩ :=
    exists_head (members_skipSpace member s) ⟨_, rfl⟩ h
  by_cases hclose : c = '\x7d'
  · subst hclose
    cases hread
    have hpassed : Passed (members member s) ('\x7d' :: rest) s rest ['\x7d'] :=
      .single fun _ => rfl
    exact ⟨space ++ ['\x7d'], hpassed.space hspace (members_skipSpace member s),
      (membersSpelled_brace s).space hspace⟩
  by_cases hquote : c = '"'
  · subst hquote
    obtain ⟨t, mid, ht, hmore⟩ := exists_of_andThen (r := member s)
      (f := fun s rest => moreMembers member (rest.length + 1) s rest) hread
    obtain ⟨used, hpassed, hspelled⟩ := hmember s _ t mid ht
    obtain ⟨used', hpassed', hspelled'⟩ := exists_passed_moreMembers hmember hmore
    have hboth : MembersSpelled s (used ++ used') m := .append hspelled hspelled'
    have hrest : Passed (fun r => moreMembers member (r.length + 1) t r) mid m rest used' :=
      .of_fuel (f := fun fuel => moreMembers member fuel t) hpassed'
    have hinner : Passed ((member s).andThen fun s r => moreMembers member (r.length + 1) s r)
        ('"' :: ds) m rest (used ++ used') := hpassed.andThen hrest
    have hhere : Passed (members member s) ('"' :: ds) m rest (used ++ used') :=
      hinner.congr hboth.ne_nil fun _ => rfl
    exact ⟨space ++ (used ++ used'), hhere.space hspace (members_skipSpace member s),
      hboth.space hspace⟩
  · rw [members_other hhead hclose hquote] at hread
    cases hread

end Members

section Value

variable {levels : Nat} {c : Char} {cs rest : List Char} {v : Value}

theorem exists_passed_scalar (hhead : isSpace c = false) (hlist : c ≠ '[') (hobject : c ≠ '\x7b')
    (h : value levels (c :: cs) = .ok (v, rest)) :
    ∃ used, Passed (value levels) (c :: cs) v rest used ∧ Spelled v.Mentions used := by
  have hread (es : List Char) : value levels (c :: es) = scalar c es :=
    value_scalar (skipSpace_cons hhead es) hlist hobject
  rw [hread] at h
  have hword {w : Value} {ls : List Char} (hsolid : AllSolid (c :: ls))
      (hw : ∀ d, ¬ w.Mentions d) (hscalar : ∀ es, scalar c es = (letters ls).map (fun _ => w) es) :
      ∃ used, Passed (value levels) (c :: cs) v rest used ∧ Spelled v.Mentions used := by
    rw [hscalar] at h
    obtain ⟨_, hletters, rfl⟩ := exists_of_map h
    obtain ⟨used, hpassed, rfl⟩ := passes_letters cs _ rest hletters
    exact ⟨c :: used, (hpassed.map fun _ => w).cons fun es => (hread es).trans (hscalar es),
      (Spelled.of_allSolid (List.cons_ne_nil _ _) hsolid).mono fun d hd => hw d hd⟩
  by_cases hn : c = 'n'
  · subst hn
    exact hword (w := .null) (by decide) nofun fun _ => rfl
  by_cases ht : c = 't'
  · subst ht
    exact hword (w := .bool true) (by decide) nofun fun _ => rfl
  by_cases hf : c = 'f'
  · subst hf
    exact hword (w := .bool false) (by decide) nofun fun _ => rfl
  unfold scalar at hread h
  by_cases hquote : c = '"'
  · simp only [if_neg hn, if_neg ht, if_neg hf, if_pos hquote] at hread h
    obtain ⟨s, hs, rfl⟩ := exists_of_map h
    obtain ⟨used, hpassed, hspelled⟩ := passes_quotedText _ s rest hs
    refine ⟨used, (hpassed.map Value.text).congr hspelled.ne_nil hread, hspelled.mono ?_⟩
    rintro d (hd | _)
    exact hd
  by_cases hnumber : (c = '-' || Text.isDigit c) = true
  · simp only [if_neg hn, if_neg ht, if_neg hf, if_neg hquote, if_pos hnumber] at hread h
    obtain ⟨x, hx, rfl⟩ := exists_of_map h
    obtain ⟨used, hpassed, hne, hsolid⟩ := passes_number _ x rest hx
    exact ⟨used, (hpassed.map Value.number).congr hne hread,
      (Spelled.of_allSolid hne hsolid).mono nofun⟩
  · simp only [if_neg hn, if_neg ht, if_neg hf, if_neg hquote, if_neg hnumber] at h
    cases h

theorem passes_value (levels : Nat) :
    (value levels).Passes fun used v => Spelled v.Mentions used := by
  induction levels with
  | zero =>
    intro cs v rest h
    obtain ⟨space, c, ds, hspace, hhead, rfl, hread⟩ :=
      exists_head (value_skipSpace 0) ⟨_, rfl⟩ h
    by_cases hopen : (c = '[' || c = '\x7b') = true
    · rw [value_zero (skipSpace_cons hhead ds) hopen] at hread
      cases hread
    · rw [Bool.or_eq_true, decide_eq_true_eq, decide_eq_true_eq, not_or] at hopen
      obtain ⟨used, hpassed, hspelled⟩ := exists_passed_scalar hhead hopen.1 hopen.2 hread
      exact ⟨space ++ used, hpassed.space hspace (value_skipSpace 0), hspelled.space hspace⟩
  | succ levels ih =>
    intro cs v rest h
    obtain ⟨space, c, ds, hspace, hhead, rfl, hread⟩ :=
      exists_head (value_skipSpace (levels + 1)) ⟨_, rfl⟩ h
    have hskip := value_skipSpace (levels + 1)
    by_cases hlist : c = '['
    · subst hlist
      rw [value_bracket (skipSpace_cons hhead ds)] at hread
      obtain ⟨vs, hvs, rfl⟩ := exists_of_map hread
      obtain ⟨used, hpassed, hspelled⟩ := passes_items ih ds vs rest hvs
      refine ⟨space ++ '[' :: used, ((hpassed.map Value.list).cons fun es =>
        value_bracket (skipSpace_cons hhead es)).space hspace hskip,
        ((hspelled.mono ?_).cons (by decide)).space hspace⟩
      rintro d (_ | ⟨hv, hd⟩)
      exact ⟨_, hv, hd⟩
    by_cases hobject : c = '\x7b'
    · subst hobject
      rw [value_brace (skipSpace_cons hhead ds)] at hread
      obtain ⟨m, hm, rfl⟩ := exists_of_map hread
      obtain ⟨used, hpassed, hspelled⟩ := passes_members (passes_freeMember ih) [] ds m rest hm
      refine ⟨space ++ '\x7b' :: used, ((hpassed.map Value.object).cons fun es =>
        value_brace (skipSpace_cons hhead es)).space hspace hskip,
        ((hspelled.mono fun d hd => ⟨hd, ?_⟩).cons (by decide)).space hspace⟩
      rintro (_ | _ | ⟨hp, -⟩ | ⟨hp, -⟩) <;> cases hp
    · obtain ⟨used, hpassed, hspelled⟩ := exists_passed_scalar hhead hlist hobject hread
      exact ⟨space ++ used, hpassed.space hspace hskip, hspelled.space hspace⟩

end Value

section Parse

variable {s : String} {v : Value}

theorem exists_passed_of_parse (h : Value.parse s = .ok v) :
    ∃ used space, Passed (value maxLevels) s.toList v space used ∧ Spelled v.Mentions used ∧
      ∀ c ∈ space, isSpace c = true := by
  rw [Value.parse, runAll] at h
  split at h
  · next w rest hread =>
    obtain ⟨used, hpassed, hspelled⟩ := passes_value maxLevels _ w rest hread
    rw [finish] at h
    split at h
    · next hspace =>
      cases h
      exact ⟨used, rest, hpassed, hspelled, List.dropWhile_eq_nil_iff.mp hspace⟩
    · cases h
  · cases h

/-- Strings are whole in a text that holds a value. -/
theorem scan_of_parse (h : Value.parse s = .ok v) :
    Region.between.scan s.toList = some .between := by
  obtain ⟨used, space, hpassed, hspelled, hspace⟩ := exists_passed_of_parse h
  rw [hpassed.text, Region.scan_append hspelled.scan]
  exact Region.scan_between fun c hc => .inl (hspace c hc)

theorem mem_of_parse {c : Char} (h : Value.parse s = .ok v) (hc : v.Mentions c) :
    c ∈ s.toList ∨ '\\' ∈ s.toList := by
  obtain ⟨used, space, hpassed, hspelled, -⟩ := exists_passed_of_parse h
  rw [hpassed.text]
  exact (hspelled.holds c hc).imp (List.mem_append_left _) (List.mem_append_left _)

/-- Between strings there is no blank but space, so that the first character that is not space is
not blank. -/
theorem head_not_blank {r : Region} {c : Char} {cs ds : List Char}
    (hscan : Region.between.scan cs = some r) (hhead : skipSpace cs = c :: ds) :
    Text.isBlank c = false := by
  have hcs : cs = cs.takeWhile isSpace ++ c :: ds := by
    rw [← hhead]
    exact List.takeWhile_append_dropWhile.symm
  have htake : Region.between.scan (cs.takeWhile isSpace) = some .between :=
    Region.scan_between fun d hd => .inl (List.mem_takeWhile_imp hd)
  rw [hcs, Region.scan_append htake] at hscan
  obtain ⟨q, hstep, -⟩ := Region.exists_of_scan_cons hscan
  rw [Region.step] at hstep
  split at hstep
  · next hquote =>
    rw [hquote]
    decide
  split at hstep
  · next hplain =>
    rw [isSpace_of_skipSpace hhead] at hplain
    exact (hplain.resolve_left Bool.false_ne_true).not_blank
  · cases hstep

theorem Value.parse_trimmed (h : Value.parse s = .ok v) : Value.parse (Text.trimmed s) = .ok v := by
  obtain ⟨used, space, hpassed, hspelled, hspace⟩ := exists_passed_of_parse h
  have hused : used = used.takeWhile isSpace ++ skipSpace used :=
    List.takeWhile_append_dropWhile.symm
  have hread : value maxLevels (skipSpace used) = .ok (v, []) := by
    rw [value_skipSpace, ← List.append_nil used]
    exact hpassed.reads [] (.inl rfl)
  have htrim : Text.trim s.toList = skipSpace used := by
    have hblank : ∀ c ∈ space, Text.isBlank c = true := fun c hc => isBlank_of_isSpace (hspace c hc)
    have hfront : ∀ c ∈ used.takeWhile isSpace, Text.isBlank c = true :=
      fun c hc => isBlank_of_isSpace (List.mem_takeWhile_imp hc)
    rw [hpassed.text, Text.trim, Text.strip_append hblank, hused, Text.strip_prepend hfront,
      ← hused, Text.strip_eq_self_iff]
    cases hbody : skipSpace used with
    | nil =>
      constructor
      · intro e he
        cases he
      · intro e he
        cases he
    | cons c ds =>
      obtain ⟨d, hd, hlast⟩ := hspelled.ends
      rw [hused, List.getLast?_append, hbody] at hd
      refine ⟨fun e he => ?_, fun e he => ?_⟩
      · cases he
        exact head_not_blank hspelled.scan hbody
      · rw [Option.mem_def.mp he] at hd
        cases hd
        exact hlast
  rw [Text.trimmed, htrim, Value.parse, String.toList_ofList, runAll, hread]
  rfl

end Parse

end Mockup.Json
