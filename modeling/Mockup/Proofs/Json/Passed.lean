import Mockup.Proofs.Json.Region
import Mockup.Proofs.Json.Spelling

/-! The text that a reader passes over. What it reads hangs on that text alone, as long as what
follows it starts as before or nothing follows. -/

namespace Mockup.Json

namespace Reader

variable {α β : Type} {r : Reader α} {x : α} {c : Char} {cs rest mid used used' : List Char}

def Continues (rest rest' : List Char) : Prop := rest' = [] ∨ rest'.head? = rest.head?

theorem Continues.append {rest' : List Char} (h : Continues rest rest') (used : List Char) :
    Continues (used ++ rest) (used ++ rest') := by
  cases used with
  | nil => exact h
  | cons c used => exact .inr rfl

/-- The text is what is passed and what is left, and from whatever continues what is passed the same
is read. -/
structure Passed (r : Reader α) (cs : List Char) (x : α) (rest used : List Char) : Prop where
  text : cs = used ++ rest
  reads : ∀ rest', Continues rest rest' → r (used ++ rest') = .ok (x, rest')

namespace Passed

theorem map (h : Passed r cs x rest used) (f : α → β) : Passed (r.map f) cs (f x) rest used where
  text := h.text
  reads rest' hrest' := by rw [Reader.map, h.reads rest' hrest']

theorem andThen {f : α → Reader β} {y : β} (h : Passed r cs x mid used)
    (h' : Passed (f x) mid y rest used') : Passed (r.andThen f) cs y rest (used ++ used') where
  text := by rw [h.text, h'.text, List.append_assoc]
  reads rest' hrest' := by
    have hmid : Continues mid (used' ++ rest') := h'.text ▸ hrest'.append used'
    rw [Reader.andThen, List.append_assoc, h.reads _ hmid]
    exact h'.reads rest' hrest'

theorem cons {q : Reader α} (hq : ∀ es, q (c :: es) = r es) (h : Passed r cs x rest used) :
    Passed q (c :: cs) x rest (c :: used) where
  text := by rw [h.text, List.cons_append]
  reads rest' hrest' := (hq _).trans (h.reads rest' hrest')

theorem space {space : List Char} (hspace : ∀ c ∈ space, isSpace c = true)
    (hskip : ∀ es, r (skipSpace es) = r es) (h : Passed r cs x rest used) :
    Passed r (space ++ cs) x rest (space ++ used) where
  text := by rw [h.text, List.append_assoc]
  reads rest' hrest' := by
    rw [List.append_assoc, ← hskip, skipSpace_append hspace, hskip]
    exact h.reads rest' hrest'

theorem congr {q : Reader α} (h : Passed r (c :: cs) x rest used) (hne : used ≠ [])
    (hq : ∀ es, q (c :: es) = r (c :: es)) : Passed q (c :: cs) x rest used where
  text := h.text
  reads rest' hrest' := by
    obtain ⟨d, used, rfl⟩ := List.exists_cons_of_ne_nil hne
    obtain rfl : c = d := (List.cons.inj h.text).1
    exact (hq _).trans (h.reads rest' hrest')

theorem of_nothing (h : ∀ rest', Continues cs rest' → r rest' = .ok (x, rest')) :
    Passed r cs x cs [] := ⟨rfl, h⟩

theorem single (h : ∀ es, r (c :: es) = .ok (x, es)) : Passed r (c :: rest) x rest [c] :=
  .cons (r := done x) h (.of_nothing fun _ _ => rfl)

theorem comma {space space' : List Char} (hspace : ∀ c ∈ space, isSpace c = true)
    (hspace' : ∀ c ∈ space', isSpace c = true) (hskip : ∀ es, r (skipSpace es) = r es)
    (hskip' : ∀ es, r (',' :: skipSpace es) = r (',' :: es))
    (h : Passed (fun es => r (',' :: es)) cs x rest used) :
    Passed r (space ++ ',' :: (space' ++ cs)) x rest (space ++ ',' :: (space' ++ used)) :=
  ((h.space hspace' hskip').cons fun _ => rfl).space hspace hskip

theorem of_fuel {f : Nat → Reader α}
    (h : ∀ fuel, used.length < fuel → Passed (f fuel) cs x rest used) :
    Passed (fun es => f (es.length + 1) es) cs x rest used where
  text := (h _ (Nat.lt_succ_self _)).text
  reads rest' hrest' := by
    refine (h _ ?_).reads rest' hrest'
    rw [List.length_append]
    omega

end Passed

theorem exists_of_map {f : α → β} {y : β} (h : r.map f cs = .ok (y, rest)) :
    ∃ x, r cs = .ok (x, rest) ∧ f x = y := by
  simp only [Reader.map] at h
  split at h
  · next x mid hx =>
    cases h
    exact ⟨x, hx, rfl⟩
  · cases h

theorem exists_of_andThen {f : α → Reader β} {y : β} (h : r.andThen f cs = .ok (y, rest)) :
    ∃ x mid, r cs = .ok (x, mid) ∧ f x mid = .ok (y, rest) := by
  simp only [Reader.andThen] at h
  split at h
  · next x mid hx => exact ⟨x, mid, hx, h⟩
  · cases h

theorem exists_head (hskip : ∀ es, r (skipSpace es) = r es) (hnil : ∃ e, r [] = .error e)
    (h : r cs = .ok (x, rest)) :
    ∃ space c ds, (∀ c ∈ space, isSpace c = true) ∧ isSpace c = false ∧ cs = space ++ c :: ds ∧
      r (c :: ds) = .ok (x, rest) := by
  have hcs : cs = cs.takeWhile isSpace ++ skipSpace cs := List.takeWhile_append_dropWhile.symm
  rw [← hskip] at h
  cases hhead : skipSpace cs with
  | nil =>
    obtain ⟨e, he⟩ := hnil
    rw [hhead, he] at h
    cases h
  | cons c ds =>
    rw [hhead] at h hcs
    exact ⟨_, c, ds, fun _ => List.mem_takeWhile_imp, isSpace_of_skipSpace hhead, hcs, h⟩

def Passes (r : Reader α) (P : List Char → α → Prop) : Prop :=
  ∀ cs x rest, r cs = .ok (x, rest) → ∃ used, Passed r cs x rest used ∧ P used x

variable {P : List Char → α → Prop} {Q : List Char → β → Prop}

theorem Passes.map (h : r.Passes P) {f : α → β} (hf : ∀ used x, P used x → Q used (f x)) :
    (r.map f).Passes Q := by
  intro cs y rest hy
  obtain ⟨x, hx, rfl⟩ := exists_of_map hy
  obtain ⟨used, hpassed, hP⟩ := h cs x rest hx
  exact ⟨used, hpassed.map f, hf used x hP⟩

theorem Passes.andThen {R : List Char → β → Prop} {Q : α → List Char → β → Prop} (h : r.Passes P)
    {f : α → Reader β} (hf : ∀ x, (f x).Passes (Q x))
    (hR : ∀ used x used' y, P used x → Q x used' y → R (used ++ used') y) :
    (r.andThen f).Passes R := by
  intro cs y rest hy
  obtain ⟨x, mid, hx, hy⟩ := exists_of_andThen hy
  obtain ⟨used, hpassed, hP⟩ := h cs x mid hx
  obtain ⟨used', hpassed', hQ⟩ := hf x mid y rest hy
  exact ⟨used ++ used', hpassed.andThen hpassed', hR used x used' y hP hQ⟩

theorem Passes.mono {Q : List Char → α → Prop} (h : r.Passes P)
    (hPQ : ∀ used x, P used x → Q used x) : r.Passes Q := by
  intro cs x rest hx
  obtain ⟨used, hpassed, hP⟩ := h cs x rest hx
  exact ⟨used, hpassed, hPQ used x hP⟩

def AllSolid (used : List Char) : Prop := ∀ c ∈ used, IsSolid c

instance (used : List Char) : Decidable (AllSolid used) := List.decidableBAll IsSolid used

theorem AllSolid.append (h : AllSolid used) (h' : AllSolid used') : AllSolid (used ++ used') :=
  List.forall_mem_append.mpr ⟨h, h'⟩

theorem AllSolid.cons (hc : IsSolid c) (h : AllSolid used) : AllSolid (c :: used) :=
  List.forall_mem_cons.mpr ⟨hc, h⟩

theorem allSolid_digits (cs : List Char) : AllSolid (cs.takeWhile Text.isDigit) :=
  fun _ hc => isSolid_of_isDigit (List.mem_takeWhile_imp hc)

theorem passes_letters {ls : List Char} : (letters ls).Passes fun used _ => used = ls := by
  induction ls with
  | nil =>
    intro cs x rest h
    cases h
    exact ⟨[], .of_nothing fun _ _ => rfl, rfl⟩
  | cons l ls ih =>
    intro cs x rest h
    cases cs with
    | nil => cases h
    | cons c cs =>
      rw [letters] at h
      split at h
      · next hc =>
        obtain ⟨used, hpassed, rfl⟩ := ih cs x rest h
        exact ⟨c :: used, hpassed.cons fun _ => if_pos hc, by rw [hc]⟩
      · cases h

section Number

theorem spanDigits_continued {rest' : List Char}
    (h : Continues (cs.dropWhile Text.isDigit) rest') :
    spanDigits (cs.takeWhile Text.isDigit ++ rest') = (cs.takeWhile Text.isDigit, rest') := by
  have hdigits : ∀ c ∈ cs.takeWhile Text.isDigit, Text.isDigit c = true :=
    fun _ => List.mem_takeWhile_imp
  have hrest : rest'.takeWhile Text.isDigit = [] ∧ rest'.dropWhile Text.isDigit = rest' := by
    cases rest' with
    | nil => exact ⟨rfl, rfl⟩
    | cons c more =>
      rcases h with hnil | hhead
      · cases hnil
      · have hc := List.head?_dropWhile_not Text.isDigit cs
        rw [← hhead] at hc
        have hnot : Text.isDigit c = false := hc
        simp [hnot]
  rw [spanDigits_eq, List.takeWhile_append_of_pos hdigits, List.dropWhile_append_of_pos hdigits,
    hrest.1, hrest.2, List.append_nil]

theorem passes_digitsAfter {f : List Char → α}
    (hread : ∀ es, r es = match spanDigits es with
      | ([], []) => .error ⟨.endOfValue, [], 0⟩
      | ([], rest) => .error ⟨.badNumber, rest, 1⟩
      | (digits, rest) => .ok (f digits, rest)) :
    r.Passes fun used _ => used ≠ [] ∧ AllSolid used := by
  intro cs x rest h
  have hsplit := List.takeWhile_append_dropWhile (p := Text.isDigit) (l := cs)
  have hsolid := allSolid_digits cs
  have hagain := @spanDigits_continued cs
  rw [hread, spanDigits_eq] at h
  generalize cs.takeWhile Text.isDigit = digits at h hsplit hsolid hagain
  generalize cs.dropWhile Text.isDigit = left at h hsplit hagain
  cases digits with
  | nil => cases left <;> cases h
  | cons d digits =>
    cases h
    refine ⟨d :: digits, ⟨hsplit.symm, fun rest' hrest' => ?_⟩, List.cons_ne_nil _ _, hsolid⟩
    rw [hread, hagain hrest']

theorem passes_wholeDigits : wholeDigits.Passes fun used _ => used ≠ [] ∧ AllSolid used := by
  intro cs x rest h
  cases cs with
  | nil => cases h
  | cons c cs =>
    by_cases hzero : c = '0'
    · subst hzero
      have hx : x = ['0'] ∧ rest = cs ∧ ∀ d ∈ cs.head?, Text.isDigit d = false := by
        cases cs with
        | nil =>
          cases h
          exact ⟨rfl, rfl, nofun⟩
        | cons d more =>
          rw [wholeDigits] at h
          split at h
          · cases h
          · next hd =>
            cases h
            exact ⟨rfl, rfl, fun e he => Option.some.inj he ▸ Bool.eq_false_iff.mpr hd⟩
      obtain ⟨rfl, rfl, hdigit⟩ := hx
      refine ⟨['0'], ⟨rfl, fun rest' hrest' => ?_⟩, List.cons_ne_nil _ _,
        by decide⟩
      cases rest' with
      | nil => rfl
      | cons d more =>
        have hd : Text.isDigit d = false := by
          rcases hrest' with hnil | hhead
          · cases hnil
          · exact hdigit d hhead.symm
        rw [List.singleton_append, wholeDigits, if_neg (Bool.eq_false_iff.mp hd)]
    · rw [wholeDigits_cons hzero] at h
      split at h
      · next hc =>
        have htake : (c :: cs).takeWhile Text.isDigit = c :: cs.takeWhile Text.isDigit :=
          List.takeWhile_cons_of_pos hc
        rw [spanDigits_eq] at h
        cases h
        refine ⟨(c :: cs).takeWhile Text.isDigit,
          ⟨List.takeWhile_append_dropWhile.symm, fun rest' hrest' => ?_⟩,
          by rw [htake]; exact List.cons_ne_nil _ _, allSolid_digits _⟩
        have hagain := spanDigits_continued hrest'
        rw [htake, List.cons_append] at hagain ⊢
        rw [wholeDigits_cons hzero, if_pos hc, hagain]
      · cases h

theorem passes_of_start {p : Char → Prop} {y : α} (hsolid : ∀ c, p c → IsSolid c)
    (hmissing : ∀ es, (∀ c ∈ es.head?, ¬ p c) → r es = .ok (y, es))
    (hpart : ∀ c, p c → Passes (fun es => r (c :: es)) fun used _ => AllSolid used) :
    r.Passes fun used _ => AllSolid used := by
  intro cs x rest h
  by_cases hstart : ∀ c ∈ cs.head?, ¬ p c
  · rw [hmissing cs hstart] at h
    cases h
    refine ⟨[], .of_nothing fun rest' hrest' => hmissing rest' ?_, List.forall_mem_nil _⟩
    rcases hrest' with rfl | hhead
    · nofun
    · rwa [hhead]
  · obtain ⟨c, hc, hp⟩ : ∃ c ∈ cs.head?, p c := by simpa using hstart
    obtain ⟨es, rfl⟩ := List.head?_eq_some_iff.mp hc
    obtain ⟨used, hpassed, hused⟩ := hpart c hp es x rest h
    exact ⟨c :: used, hpassed.cons fun _ => rfl, hused.cons (hsolid c hp)⟩

theorem passes_fractionDigits : fractionDigits.Passes fun used _ => AllSolid used := by
  refine passes_of_start (p := (· = '.')) (y := none) (by rintro c rfl; decide) ?_ ?_
  · intro es hes
    cases es with
    | nil => rfl
    | cons c es => exact fractionDigits_cons (hes c rfl) es
  · rintro c rfl
    exact (passes_digitsAfter (f := some) fun _ => rfl).mono fun _ _ h => h.2

theorem passes_exponentDigits (negative : Bool) :
    Passes (exponentDigits negative) fun used _ => used ≠ [] ∧ AllSolid used :=
  passes_digitsAfter (f := fun digits => some ⟨negative, digits⟩) fun _ => rfl

theorem passes_exponentPart : exponentPart.Passes fun used _ => AllSolid used := by
  refine passes_of_start (p := fun c => (c = 'e' || c = 'E') = true) (y := none) ?_ ?_ ?_
  · intro c hc
    rw [Bool.or_eq_true, decide_eq_true_eq, decide_eq_true_eq] at hc
    rcases hc with rfl | rfl <;> decide
  · intro es hes
    cases es with
    | nil => rfl
    | cons c es => exact if_neg (hes c rfl)
  · intro c hletter es x rest h
    have hsign {sign : Char} {negative : Bool} {more : List Char} (hsolid : IsSolid sign)
        (hread : ∀ more, exponentPart (c :: sign :: more) = exponentDigits negative more)
        (h : exponentPart (c :: sign :: more) = .ok (x, rest)) :
        ∃ used, Passed (fun es => exponentPart (c :: es)) (sign :: more) x rest used ∧
          AllSolid used := by
      rw [hread] at h
      obtain ⟨used, hpassed, -, hused⟩ := passes_exponentDigits negative more x rest h
      exact ⟨sign :: used, hpassed.cons hread, hused.cons hsolid⟩
    cases es with
    | nil =>
      have hend : exponentPart [c] = exponentDigits false [] := if_pos hletter
      cases hend.symm.trans h
    | cons d es =>
      by_cases hplus : d = '+'
      · subst hplus
        exact hsign (by decide) (fun _ => if_pos hletter) h
      by_cases hminus : d = '-'
      · subst hminus
        exact hsign (by decide) (fun _ => if_pos hletter) h
      have hread := exponentPart_unsigned hletter hplus hminus
      obtain ⟨used, hpassed, hne, hused⟩ :=
        passes_exponentDigits false (d :: es) x rest ((hread es).symm.trans h)
      exact ⟨used, hpassed.congr hne hread, hused⟩

theorem Handed.passes (h : Handed r) : r.Passes fun used _ => AllSolid used := by
  intro cs x rest hx
  rcases h with ⟨y, hy⟩ | herror
  · rw [hy] at hx
    cases hx
    exact ⟨[], .of_nothing fun rest' _ => hy rest', List.forall_mem_nil _⟩
  · obtain ⟨e, he⟩ := herror cs
    rw [he] at hx
    cases hx

theorem passes_unsignedNumber (negative : Bool) :
    Passes (unsignedNumber negative) fun used _ => used ≠ [] ∧ AllSolid used := by
  obtain ⟨last, hlast, heq⟩ := exists_unsignedNumber_eq negative
  have hmore {γ : Type} {r : Reader γ} {f : γ → Reader Number}
      (hr : r.Passes fun used _ => AllSolid used)
      (hf : ∀ x, (f x).Passes fun used _ => AllSolid used) :
      (r.andThen f).Passes fun used _ => AllSolid used :=
    hr.andThen hf fun _ _ _ _ h h' => h.append h'
  rw [heq]
  refine passes_wholeDigits.andThen (Q := fun _ used _ => AllSolid used) (fun whole => ?_)
    fun _ _ _ _ h h' => ⟨List.append_ne_nil_of_left_ne_nil h.1 _, h.2.append h'⟩
  exact hmore passes_fractionDigits fun fraction => hmore passes_exponentPart fun exponent =>
    (hlast whole fraction exponent).passes

theorem passes_number : number.Passes fun used _ => used ≠ [] ∧ AllSolid used := by
  intro cs x rest h
  cases cs with
  | nil => cases h
  | cons c cs =>
    by_cases hminus : c = '-'
    · subst hminus
      obtain ⟨used, hpassed, hne, hused⟩ := passes_unsignedNumber true cs x rest h
      exact ⟨'-' :: used, hpassed.cons fun _ => rfl, List.cons_ne_nil _ _, hused.cons (by decide)⟩
    · rw [number_cons hminus] at h
      obtain ⟨used, hpassed, hne, hused⟩ := passes_unsignedNumber false (c :: cs) x rest h
      exact ⟨used, hpassed.congr hne (number_cons hminus), hne, hused⟩

end Number

end Reader

end Mockup.Json
