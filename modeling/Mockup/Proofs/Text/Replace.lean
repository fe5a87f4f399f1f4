import Mathlib.Data.List.Basic

/-! Replacing a text in a text, from the left and without overlap. -/

namespace Mockup.Text

def replaceFrom (old new : List Char) (skip : Nat) : List Char → List Char
  | [] => []
  | c :: cs =>
    match skip with
    | n + 1 => replaceFrom old new n cs
    | 0 =>
      if old.isPrefixOf (c :: cs) then new ++ replaceFrom old new (old.length - 1) cs
      else c :: replaceFrom old new 0 cs

def replaceAll (old new cs : List Char) : List Char := replaceFrom old new 0 cs

variable {a b c : Char} {new cs : List Char}

theorem replaceAll_singleton (a : Char) (new cs : List Char) :
    replaceAll [a] new cs = cs.flatMap fun c => if c = a then new else [c] := by
  induction cs with
  | nil => rfl
  | cons c cs ih =>
    unfold replaceAll at ih ⊢
    rw [replaceFrom, List.flatMap_cons]
    by_cases hc : c = a
    · simp [hc, ih]
    · simp [hc, Ne.symm hc, ih]

@[simp] theorem replaceAll_nil (old new : List Char) : replaceAll old new [] = [] := rfl

theorem replaceAll_pair (a b : Char) (new cs : List Char) :
    replaceAll [a, b] new (a :: b :: cs) = new ++ replaceAll [a, b] new cs := by
  simp [replaceAll, replaceFrom]

theorem replaceAll_pair_of_not_prefix (h : ¬ [a, b] <+: c :: cs) :
    replaceAll [a, b] new (c :: cs) = c :: replaceAll [a, b] new cs := by
  rw [← List.isPrefixOf_iff_prefix] at h
  unfold replaceAll
  rw [replaceFrom, if_neg h]

end Mockup.Text
