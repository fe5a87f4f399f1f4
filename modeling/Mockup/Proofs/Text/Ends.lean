import Mathlib.Data.List.Infix
import Mockup.Proofs.Text.Trim

/-! Dropping characters from the ends of a text, run by run. What is dropped at one end has no
influence on what is dropped at the other. -/

namespace Mockup.Text

variable {p q : Char → Bool} {cs run rest : List Char} {c m : Char}

def Consists (p : Char → Bool) (run : List Char) : Prop := ∀ c ∈ run, p c = true

def Apart (p q : Char → Bool) : Prop := ∀ c, p c = true → q c = false

theorem Apart.symm (h : Apart p q) : Apart q p := by
  intro c hq
  rw [← Bool.not_eq_true]
  intro hp
  rw [h c hp] at hq
  cases hq

theorem dropEnd_cons (p : Char → Bool) (c : Char) (cs : List Char) :
    dropEnd p (c :: cs) = if (dropEnd p cs).isEmpty && p c then [] else c :: dropEnd p cs := by
  rw [dropEnd, dropEnd, List.reverse_cons, List.dropWhile_append, List.isEmpty_reverse]
  cases hrest : (cs.reverse.dropWhile p).isEmpty with
  | false => simp
  | true =>
    rw [List.isEmpty_iff] at hrest
    cases hc : p c <;> simp [hc, hrest]

theorem dropEnd_dropWhile (p q : Char → Bool) (cs : List Char) :
    dropEnd p (cs.dropWhile q) = (dropEnd p cs).dropWhile q := by
  induction cs with
  | nil => rfl
  | cons c cs ih =>
    rw [dropEnd_cons]
    cases hq : q c with
    | true =>
      rw [List.dropWhile_cons_of_pos hq, ih]
      split
      · next hempty =>
        rw [Bool.and_eq_true, List.isEmpty_iff] at hempty
        rw [hempty.1]
      · rw [List.dropWhile_cons_of_pos hq]
    | false =>
      rw [List.dropWhile_cons_of_neg (Bool.eq_false_iff.mp hq), dropEnd_cons]
      split
      · rfl
      · rw [List.dropWhile_cons_of_neg (Bool.eq_false_iff.mp hq)]

theorem isPrefix_dropEnd (p : Char → Bool) (cs : List Char) : dropEnd p cs <+: cs :=
  List.rdropWhile_prefix p cs

theorem isInfix_strip (p : Char → Bool) (cs : List Char) : strip p cs <:+: cs :=
  (isPrefix_dropEnd p _).isInfix.trans (List.dropWhile_suffix p).isInfix

theorem dropEnd_eq_self_iff : dropEnd p cs = cs ↔ ∀ c ∈ cs.getLast?, p c = false := by
  rw [dropEnd_eq_rdropWhile, List.rdropWhile_eq_self_iff]
  constructor
  · intro h c hc
    obtain ⟨hne, rfl⟩ := List.mem_getLast?_eq_getLast hc
    exact Bool.eq_false_iff.mpr (h hne)
  · intro h hne
    rw [h _ (List.getLast_mem_getLast? hne)]
    exact Bool.false_ne_true

theorem getLast?_dropEnd (p : Char → Bool) (cs : List Char) :
    ∀ c ∈ (dropEnd p cs).getLast?, p c = false := by
  intro c hc
  obtain ⟨hne, rfl⟩ := List.mem_getLast?_eq_getLast hc
  exact Bool.eq_false_iff.mpr (List.rdropWhile_last_not p cs hne)

theorem prefix_dropEnd {front : List Char} (h : front <+: cs)
    (hlast : ∀ c ∈ front.getLast?, p c = false) : front <+: dropEnd p cs := by
  obtain ⟨back, rfl⟩ := h
  rw [dropEnd, List.reverse_append, List.dropWhile_append]
  split
  · have hfront : (front.reverse.dropWhile p).reverse = front := dropEnd_eq_self_iff.mpr hlast
    rw [hfront]
  · rw [List.reverse_append, List.reverse_reverse]
    exact List.prefix_append _ _

/-- The longest front of a text among those that have so many characters at most and do not end in
a character to be dropped. -/
structure LongestFront (p : Char → Bool) (limit : Nat) (cs front : List Char) : Prop where
  starts : front <+: cs
  length_le : front.length ≤ limit
  last : ∀ c ∈ front.getLast?, p c = false
  longest : ∀ other, other <+: cs → other.length ≤ limit →
    (∀ c ∈ other.getLast?, p c = false) → other <+: front

theorem longestFront_dropEnd (p : Char → Bool) (limit : Nat) (cs : List Char) :
    LongestFront p limit cs (dropEnd p (cs.take limit)) := by
  have hcut := isPrefix_dropEnd p (cs.take limit)
  exact {
    starts := hcut.trans (List.take_prefix limit cs)
    length_le := hcut.length_le.trans (List.length_take_le limit cs)
    last := getLast?_dropEnd p _
    longest := fun _ hstarts hlength hlast =>
      prefix_dropEnd (List.prefix_take_iff.mpr ⟨hstarts, hlength⟩) hlast }

theorem LongestFront.ne_nil {limit : Nat} {front : List Char} (h : LongestFront p limit cs front)
    (hlimit : 0 < limit) (hfirst : cs.head? = some c) (hc : p c = false) : front ≠ [] := by
  rintro rfl
  obtain ⟨rest, rfl⟩ := List.head?_eq_some_iff.mp hfirst
  have hlast : ∀ d ∈ [c].getLast?, p d = false := fun d hd => Option.some.inj hd ▸ hc
  exact List.cons_ne_nil c [] (List.prefix_nil.mp (h.longest [c] ⟨rest, rfl⟩ hlimit hlast))

theorem exists_run (p : Char → Bool) (cs : List Char) :
    ∃ run, cs = run ++ cs.dropWhile p ∧ Consists p run ∧
      ∀ c ∈ (cs.dropWhile p).head?, p c = false :=
  ⟨cs.takeWhile p, List.takeWhile_append_dropWhile.symm, fun _ => List.mem_takeWhile_imp,
    fun _ => head?_dropWhile⟩

theorem dropWhile_eq_self (h : ∀ c ∈ cs.head?, p c = false) : cs.dropWhile p = cs := by
  cases cs with
  | nil => rfl
  | cons c cs => exact List.dropWhile_cons_of_neg (Bool.eq_false_iff.mp (h c rfl))

theorem dropWhile_run (hrun : Consists p run) (hrest : ∀ c ∈ rest.head?, p c = false) :
    (run ++ rest).dropWhile p = rest := by
  rw [List.dropWhile_append_of_pos hrun, dropWhile_eq_self hrest]

theorem forall_mem_head?_cons {P : Char → Prop} (h : P c) (rest : List Char) :
    ∀ d ∈ (c :: rest).head?, P d := fun _ hd => Option.some.inj hd ▸ h

theorem head?_run (hne : run ≠ []) (hrun : Consists p run) (hpq : Apart p q) (rest : List Char) :
    ∀ c ∈ (run ++ rest).head?, q c = false := by
  cases run with
  | nil => exact absurd rfl hne
  | cons d ds =>
    intro c hc
    obtain rfl := Option.some.inj hc
    exact hpq d (hrun d List.mem_cons_self)

theorem pair_dropWhile (hm : p m = false) (h : [m, m] <:+: cs) :
    [m, m] <:+: cs.dropWhile p := by
  obtain ⟨front, back, rfl⟩ := h
  have hstop : (m :: m :: back).dropWhile p = m :: m :: back :=
    List.dropWhile_cons_of_neg (Bool.eq_false_iff.mp hm)
  have hpair : [m, m] <:+: m :: m :: back := ⟨[], back, rfl⟩
  rw [List.append_assoc, List.dropWhile_append]
  split
  · rw [List.cons_append, List.cons_append, List.nil_append, hstop]
    exact hpair
  · exact hpair.trans (List.suffix_append _ _).isInfix

theorem pair_dropEnd (hm : p m = false) (h : [m, m] <:+: cs) : [m, m] <:+: dropEnd p cs := by
  rw [← List.reverse_infix] at h
  rw [dropEnd, ← List.reverse_infix, List.reverse_reverse]
  exact pair_dropWhile hm h

theorem pair_strip (hm : p m = false) (h : [m, m] <:+: cs) : [m, m] <:+: strip p cs :=
  pair_dropEnd hm (pair_dropWhile hm h)

end Mockup.Text
