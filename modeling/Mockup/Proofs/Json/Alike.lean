import Mockup.Proofs.Json.Space

/-! Texts that differ only in how their strings are spelled. Whatever is read from one of them is
read from the other. -/

namespace Mockup.Json

open Reader

/-- Text from quote to quote that is read as the string, whatever follows it. -/
structure Literal (s : String) (cs : List Char) : Prop where
  quote : cs.head? = some '"'
  reads : ∀ rest, quotedText (cs ++ rest) = .ok (s, rest)

inductive Alike : List Char → List Char → Prop where
  | nil : Alike [] []
  | char {c : Char} {cs ds : List Char} (plain : c ≠ '"') (rest : Alike cs ds) :
      Alike (c :: cs) (c :: ds)
  | literal {s : String} {a b cs ds : List Char} (left : Literal s a) (right : Literal s b)
      (rest : Alike cs ds) : Alike (a ++ cs) (b ++ ds)

namespace Alike

variable {cs ds : List Char}

theorem symm (h : Alike cs ds) : Alike ds cs := by
  induction h with
  | nil => exact .nil
  | char plain _ ih => exact .char plain ih
  | literal left right _ ih => exact .literal right left ih

theorem heads (h : Alike cs ds) :
    (cs = [] ∧ ds = []) ∨ ∃ c cs' ds', cs = c :: cs' ∧ ds = c :: ds' := by
  cases h with
  | nil => exact .inl ⟨rfl, rfl⟩
  | char plain rest => exact .inr ⟨_, _, _, rfl, rfl⟩
  | literal left right rest =>
    obtain ⟨a, rfl⟩ := List.head?_eq_some_iff.mp left.quote
    obtain ⟨b, rfl⟩ := List.head?_eq_some_iff.mp right.quote
    exact .inr ⟨_, _, _, rfl, rfl⟩

theorem tail {c : Char} (h : Alike (c :: cs) (c :: ds)) (hc : c ≠ '"') : Alike cs ds := by
  generalize hleft : c :: cs = es at h
  generalize hright : c :: ds = fs at h
  cases h with
  | nil => cases hleft
  | char plain rest =>
    cases hleft
    cases hright
    exact rest
  | literal left right rest =>
    obtain ⟨a, rfl⟩ := List.head?_eq_some_iff.mp left.quote
    exact absurd (List.cons.inj hleft).1 hc

theorem dropWhile {p : Char → Bool} (hp : p '"' = false) (h : Alike cs ds) :
    Alike (cs.dropWhile p) (ds.dropWhile p) ∧ cs.takeWhile p = ds.takeWhile p := by
  induction h with
  | nil => exact ⟨.nil, rfl⟩
  | @char c cs ds plain rest ih =>
    rw [List.dropWhile_cons, List.dropWhile_cons, List.takeWhile_cons, List.takeWhile_cons]
    split
    · exact ⟨ih.1, by rw [ih.2]⟩
    · exact ⟨.char plain rest, rfl⟩
  | @literal s a b cs ds left right rest _ =>
    -- a literal starts with a quote, which stops both texts at once
    have hdrop {e : List Char} (he : e.head? = some '"') (fs : List Char) :
        (e ++ fs).dropWhile p = e ++ fs ∧ (e ++ fs).takeWhile p = [] := by
      obtain ⟨e, rfl⟩ := List.head?_eq_some_iff.mp he
      simp [hp]
    rw [(hdrop left.quote cs).1, (hdrop left.quote cs).2, (hdrop right.quote ds).1,
      (hdrop right.quote ds).2]
    exact ⟨.literal left right rest, rfl⟩

theorem skipSpace (h : Alike cs ds) : Alike (skipSpace cs) (skipSpace ds) := (h.dropWhile rfl).1

end Alike

namespace Reader

variable {α β σ : Type} {r r' : Reader α} {cs ds : List Char}

/-- What the first reader reads from the first text, the second one reads from the second text, and
alike texts are left. -/
def Follows (r r' : Reader α) (cs ds : List Char) : Prop :=
  ∀ x rest, r cs = .ok (x, rest) →
    ∃ rest', r' ds = .ok (x, rest') ∧ Alike rest rest' ∧ rest'.length ≤ ds.length

def Respects (r : Reader α) : Prop := ∀ cs ds, Alike cs ds → Follows r r cs ds

theorem follows_error {e : Fault} (h : r cs = .error e) : Follows r r' cs ds := by
  intro x rest hx
  rw [h] at hx
  cases hx

theorem follows_ok {x : α} {rest rest' : List Char} (h : r cs = .ok (x, rest))
    (h' : r' ds = .ok (x, rest')) (hrest : Alike rest rest') (hlength : rest'.length ≤ ds.length) :
    Follows r r' cs ds := by
  intro y rest₁ hy
  rw [h] at hy
  cases hy
  exact ⟨rest', h', hrest, hlength⟩

theorem follows_congr {q p : Reader α} (h : r cs = q cs) (h' : r' ds = p ds)
    (hfollows : Follows q p cs ds) : Follows r r' cs ds := by
  intro x rest hx
  rw [h] at hx
  rw [h']
  exact hfollows x rest hx

theorem Follows.map {f : α → β} (h : Follows r r' cs ds) : Follows (r.map f) (r'.map f) cs ds := by
  intro y rest hy
  simp only [Reader.map] at hy ⊢
  split at hy
  · next x rest₁ hx =>
    obtain ⟨rest', hread, hrest⟩ := h x rest₁ hx
    cases hy
    rw [hread]
    exact ⟨rest', rfl, hrest⟩
  · cases hy

theorem Follows.andThen {f f' : α → Reader β} (h : Follows r r' cs ds)
    (hf : ∀ x rest rest', Alike rest rest' → rest'.length ≤ ds.length →
      Follows (f x) (f' x) rest rest') :
    Follows (r.andThen f) (r'.andThen f') cs ds := by
  intro y rest hy
  simp only [Reader.andThen] at hy ⊢
  split at hy
  · next x rest₁ hx =>
    obtain ⟨rest₂, hread, hrest, hlength⟩ := h x rest₁ hx
    obtain ⟨rest', hread', hrest', hlength'⟩ := hf x rest₁ rest₂ hrest hlength y rest hy
    rw [hread]
    exact ⟨rest', hread', hrest', Nat.le_trans hlength' hlength⟩
  · cases hy

theorem Follows.tail {c : Char} (h : Follows r r' cs ds) {q p : Reader α}
    (hq : q (c :: cs) = r cs) (hp : p (c :: ds) = r' ds) : Follows q p (c :: cs) (c :: ds) := by
  intro x rest hx
  rw [hq] at hx
  obtain ⟨rest', hread, hrest, hlength⟩ := h x rest hx
  exact ⟨rest', hp.trans hread, hrest, Nat.le_succ_of_le hlength⟩

theorem Respects.map {f : α → β} (h : Respects r) : Respects (r.map f) :=
  fun cs ds hlike => (h cs ds hlike).map

theorem Respects.andThen {f : α → Reader β} (h : Respects r) (hf : ∀ x, Respects (f x)) :
    Respects (r.andThen f) :=
  fun cs ds hlike => (h cs ds hlike).andThen fun x rest rest' hrest _ => hf x rest rest' hrest

theorem follows_of_heads (hskip : ∀ cs, r (skipSpace cs) = r cs)
    (hskip' : ∀ cs, r' (skipSpace cs) = r' cs) (hlike : Alike cs ds) (hnil : Follows r r' [] [])
    (hcons : ∀ c cs' ds', isSpace c = false → Alike (c :: cs') (c :: ds') →
      ds'.length < ds.length → Follows r r' (c :: cs') (c :: ds')) : Follows r r' cs ds := by
  have hlength : (skipSpace ds).length ≤ ds.length := (List.dropWhile_suffix _).length_le
  have hspace := hlike.skipSpace
  have hfollows : Follows r r' (skipSpace cs) (skipSpace ds) := by
    rcases hspace.heads with ⟨hcs, hds⟩ | ⟨c, cs', ds', hcs, hds⟩
    · rw [hcs, hds]
      exact hnil
    · rw [hcs, hds] at hspace ⊢
      rw [hds] at hlength
      exact hcons c cs' ds' (isSpace_of_skipSpace hcs) hspace hlength
  intro x rest hx
  rw [← hskip] at hx
  obtain ⟨rest', hread, hrest, hle⟩ := hfollows x rest hx
  exact ⟨rest', (hskip' ds).symm.trans hread, hrest, Nat.le_trans hle hlength⟩

theorem respects_letters {ls : List Char} (h : '"' ∉ ls) : Respects (letters ls) := by
  induction ls with
  | nil => exact fun cs ds hlike => follows_ok rfl rfl hlike (Nat.le_refl _)
  | cons l ls ih =>
    rw [List.mem_cons, not_or] at h
    intro cs ds hlike
    rcases hlike.heads with ⟨rfl, rfl⟩ | ⟨c, cs', ds', rfl, rfl⟩
    · exact follows_error rfl
    · by_cases hc : c = l
      · have hrest : Alike cs' ds' := hlike.tail fun hquote => h.1 (hquote.symm.trans hc)
        exact (ih h.2 cs' ds' hrest).tail (if_pos hc) (if_pos hc)
      · exact follows_error (if_neg hc)

theorem respects_quotedText : Respects quotedText := by
  intro cs ds hlike
  cases hlike with
  | nil => exact follows_error rfl
  | @char c cs ds plain rest =>
    have hstart : quotedText (c :: cs) = .error ⟨.noValue, c :: cs, 1⟩ := by
      rw [quotedText]
      exact fun _ h => plain (List.cons.inj h).1
    exact follows_error hstart
  | @literal s a b cs ds left right rest =>
    have hlength : ds.length ≤ (b ++ ds).length := by
      rw [List.length_append]
      exact Nat.le_add_left _ _
    exact follows_ok (left.reads _) (right.reads _) rest hlength

theorem respects_colon : Respects colon := by
  intro cs ds hlike
  refine follows_of_heads colon_skipSpace colon_skipSpace hlike (follows_error rfl) ?_
  intro c cs' ds' hspace hhere _
  by_cases hcolon : c = ':'
  · subst hcolon
    exact follows_ok rfl rfl (hhere.tail (by decide)) (Nat.le_succ _)
  · have hread : colon (c :: cs') = .error ⟨.noColon, c :: cs', 1⟩ := by
      rw [colon, skipSpace_cons hspace]
      split
      · next h => cases h
      · next h => exact absurd (List.cons.inj h).1 hcolon
      · rfl
    exact follows_error hread

section Items

variable {item : Reader α} {c : Char} {fuel fuel' : Nat}

/-- The fuels may differ, since each is only an upper bound on the text that is left. -/
theorem moreItems_follows (hitem : Respects item) (hlike : Alike cs ds)
    (hfuel : ds.length < fuel') : Follows (moreItems item fuel) (moreItems item fuel') cs ds := by
  induction fuel generalizing fuel' cs ds with
  | zero => exact follows_error rfl
  | succ fuel ih =>
    obtain ⟨fuel', rfl⟩ := Nat.exists_eq_add_one_of_ne_zero (Nat.ne_zero_of_lt hfuel)
    refine follows_of_heads (moreItems_skipSpace item fuel) (moreItems_skipSpace item fuel')
      hlike (follows_error rfl) ?_
    intro c cs' ds' hspace hhere hlength
    by_cases hclose : c = ']'
    · subst hclose
      exact follows_ok rfl rfl (hhere.tail (by decide)) (Nat.le_succ _)
    by_cases hcomma : c = ','
    · subst hcomma
      -- after a comma there may be space again, and a bracket there is a fault
      have hnext : Follows (fun es => moreItems item (fuel + 1) (',' :: es))
          (fun es => moreItems item (fuel' + 1) (',' :: es)) cs' ds' := by
        refine follows_of_heads (moreItems_comma_skipSpace item fuel)
          (moreItems_comma_skipSpace item fuel') (hhere.tail (by decide)) (follows_error rfl) ?_
        intro d es fs hspace' hhere' hlength'
        by_cases hclose' : d = ']'
        · subst hclose'
          exact follows_error rfl
        · refine follows_congr (moreItems_comma hspace' hclose')
            (moreItems_comma hspace' hclose') ?_
          refine (hitem _ _ hhere').andThen fun x rest rest' hrest hle => ?_
          have hle' : rest'.length ≤ fs.length + 1 := hle
          exact (ih hrest (by omega)).map
      exact hnext.tail rfl rfl
    · exact follows_error (moreItems_other hspace hclose hcomma)

theorem respects_items (hitem : Respects item) : Respects (items item) := by
  intro cs ds hlike
  refine follows_of_heads (items_skipSpace item) (items_skipSpace item) hlike (follows_error rfl) ?_
  intro c cs' ds' hspace hhere _
  by_cases hclose : c = ']'
  · subst hclose
    exact follows_ok rfl rfl (hhere.tail (by decide)) (Nat.le_succ _)
  · refine follows_congr (items_cons hspace hclose) (items_cons hspace hclose) ?_
    refine (hitem _ _ hhere).andThen fun x rest rest' hrest _ => ?_
    exact (moreItems_follows hitem hrest (Nat.lt_succ_self _)).map

end Items

section Members

variable {member : σ → Reader σ} {s : σ} {c : Char} {fuel fuel' : Nat}

theorem moreMembers_follows (hmember : ∀ s, Respects (member s)) (hlike : Alike cs ds)
    (hfuel : ds.length < fuel') :
    Follows (moreMembers member fuel s) (moreMembers member fuel' s) cs ds := by
  induction fuel generalizing fuel' s cs ds with
  | zero => exact follows_error rfl
  | succ fuel ih =>
    obtain ⟨fuel', rfl⟩ := Nat.exists_eq_add_one_of_ne_zero (Nat.ne_zero_of_lt hfuel)
    refine follows_of_heads (moreMembers_skipSpace member s fuel)
      (moreMembers_skipSpace member s fuel') hlike (follows_error rfl) ?_
    intro c cs' ds' hspace hhere hlength
    by_cases hclose : c = '\x7d'
    · subst hclose
      exact follows_ok rfl rfl (hhere.tail (by decide)) (Nat.le_succ _)
    by_cases hcomma : c = ','
    · subst hcomma
      have hnext : Follows (fun es => moreMembers member (fuel + 1) s (',' :: es))
          (fun es => moreMembers member (fuel' + 1) s (',' :: es)) cs' ds' := by
        refine follows_of_heads (moreMembers_comma_skipSpace member s fuel)
          (moreMembers_comma_skipSpace member s fuel') (hhere.tail (by decide))
          (follows_error rfl) ?_
        intro d es fs hspace' hhere' hlength'
        by_cases hquote : d = '"'
        · subst hquote
          refine follows_congr (q := (member s).andThen (moreMembers member fuel))
            (p := (member s).andThen (moreMembers member fuel')) rfl rfl ?_
          refine (hmember s _ _ hhere').andThen fun s' rest rest' hrest hle => ?_
          have hle' : rest'.length ≤ fs.length + 1 := hle
          exact ih hrest (by omega)
        · obtain ⟨e, hread⟩ := moreMembers_comma_other hspace' hquote
          exact follows_error hread
      exact hnext.tail rfl rfl
    · exact follows_error (moreMembers_other hspace hclose hcomma)

theorem respects_members (hmember : ∀ s, Respects (member s)) : Respects (members member s) := by
  intro cs ds hlike
  refine follows_of_heads (members_skipSpace member s) (members_skipSpace member s) hlike
    (follows_error rfl) ?_
  intro c cs' ds' hspace hhere _
  by_cases hclose : c = '\x7d'
  · subst hclose
    exact follows_ok rfl rfl (hhere.tail (by decide)) (Nat.le_succ _)
  by_cases hquote : c = '"'
  · subst hquote
    refine follows_congr
      (q := (member s).andThen fun s rest => moreMembers member (rest.length + 1) s rest)
      (p := (member s).andThen fun s rest => moreMembers member (rest.length + 1) s rest)
      rfl rfl ?_
    refine (hmember s _ _ hhere).andThen fun s' rest rest' hrest _ => ?_
    exact moreMembers_follows hmember hrest (Nat.lt_succ_self _)
  · exact follows_error (members_other hspace hclose hquote)

end Members

end Reader

end Mockup.Json
