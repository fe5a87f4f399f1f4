import Mockup.Proofs.Text.Ends

/-! Patterns with preferences. A pattern may match the front of a text in several ways, which are
tried in order: a greedy repetition prefers the longest run, a reluctant one the shortest. What a
pattern captures between two others is decided by the first way in which all three match. -/

namespace Mockup.Text

inductive Pattern where
  | one (p : Char → Bool)
  | many (p : Char → Bool)
  | few (p : Char → Bool)
  | seq (first second : Pattern)
  | either (preferred other : Pattern)
  | atEnd

namespace Pattern

def cuts (p : Char → Bool) : List Char → List (List Char × List Char)
  | [] => [([], [])]
  | c :: cs => ([], c :: cs) :: if p c then (cuts p cs).map fun s => (c :: s.1, s.2) else []

/-- The ways to match the front of a text, each with what it leaves, the preferred one first. -/
def ways : Pattern → List Char → List (List Char × List Char)
  | one _, [] => []
  | one p, c :: cs => if p c then [([c], cs)] else []
  | many p, cs => (cuts p cs).reverse
  | few p, cs => cuts p cs
  | seq x y, cs => (x.ways cs).flatMap fun s => (y.ways s.2).map fun t => (s.1 ++ t.1, t.2)
  | either x y, cs => x.ways cs ++ y.ways cs
  | atEnd, cs => if cs.isEmpty then [([], [])] else []

def rests (x : Pattern) (cs : List Char) : List (List Char) := (x.ways cs).map Prod.snd

end Pattern

structure Capture where
  before : Pattern
  group : Pattern
  after : Pattern

namespace Capture

def grasp? (x : Capture) (cs : List Char) : Option (List Char) :=
  (x.group.ways cs).findSome? fun s => if (x.after.rests s.2).isEmpty then none else some s.1

def captured? (x : Capture) (cs : List Char) : Option (List Char) :=
  (x.before.rests cs).findSome? x.grasp?

end Capture

namespace Pattern

variable {p q : Char → Bool} {x y : Pattern} {c : Char} {cs : List Char}

@[simp] theorem rests_one_nil (p : Char → Bool) : (one p).rests [] = [] := rfl

@[simp] theorem rests_one_cons (p : Char → Bool) (c : Char) (cs : List Char) :
    (one p).rests (c :: cs) = if p c then [cs] else [] := by
  rw [rests, ways]
  split <;> rfl

@[simp] theorem rests_seq (x y : Pattern) (cs : List Char) :
    (x.seq y).rests cs = (x.rests cs).flatMap y.rests := by
  simp only [rests, ways, List.map_flatMap, List.flatMap_map, List.map_map]
  rfl

@[simp] theorem rests_either (x y : Pattern) (cs : List Char) :
    (x.either y).rests cs = x.rests cs ++ y.rests cs := List.map_append

theorem rests_many_nil (p : Char → Bool) : (many p).rests [] = [[]] := rfl

theorem rests_many_cons (p : Char → Bool) (c : Char) (cs : List Char) :
    (many p).rests (c :: cs) = (if p c then (many p).rests cs else []) ++ [c :: cs] := by
  simp only [rests, ways, cuts, List.reverse_cons, List.map_append, List.map_reverse]
  split
  · rw [List.map_map]
    rfl
  · rfl

/-- A greedy repetition gives nothing back to what follows if that cannot start with any of it. -/
theorem rests_many_seq (h : ∀ c cs, p c = true → y.rests (c :: cs) = []) (cs : List Char) :
    ((many p).seq y).rests cs = y.rests (cs.dropWhile p) := by
  rw [rests_seq]
  induction cs with
  | nil => simp only [rests_many_nil, List.flatMap_singleton, List.dropWhile_nil]
  | cons c cs ih =>
    rw [rests_many_cons, List.flatMap_append, List.flatMap_singleton]
    cases hc : p c with
    | true => rw [if_pos rfl, ih, h c cs hc, List.append_nil, List.dropWhile_cons_of_pos hc]
    | false =>
      rw [if_neg Bool.false_ne_true, List.dropWhile_cons_of_neg (Bool.eq_false_iff.mp hc)]
      rfl

theorem exists_rests_many (p : Char → Bool) (cs : List Char) :
    ∃ others, (many p).rests cs = cs.dropWhile p :: others ∧ ∀ r ∈ others, r <:+ cs := by
  induction cs with
  | nil => exact ⟨[], rfl, nofun⟩
  | cons c cs ih =>
    rw [rests_many_cons]
    cases hc : p c with
    | true =>
      obtain ⟨others, hothers, hsuffix⟩ := ih
      refine ⟨others ++ [c :: cs], ?_, fun r hr => ?_⟩
      · rw [if_pos rfl, hothers, List.dropWhile_cons_of_pos hc, List.cons_append]
      · rcases List.mem_append.mp hr with hr | hr
        · exact (hsuffix r hr).trans (List.suffix_cons c cs)
        · exact List.mem_singleton.mp hr ▸ List.suffix_rfl
    | false =>
      rw [if_neg Bool.false_ne_true, List.dropWhile_cons_of_neg (Bool.eq_false_iff.mp hc)]
      exact ⟨[], rfl, nofun⟩

theorem isEmpty_dropWhile (p : Char → Bool) (cs : List Char) :
    (cs.dropWhile p).isEmpty = cs.all p := by
  rw [Bool.eq_iff_iff, List.isEmpty_iff, List.dropWhile_eq_nil_iff, List.all_eq_true]

theorem isEmpty_dropEnd (p : Char → Bool) (cs : List Char) : (dropEnd p cs).isEmpty = cs.all p := by
  rw [dropEnd, List.isEmpty_reverse, isEmpty_dropWhile, List.all_reverse]

theorem isEmpty_rests_many_atEnd (p : Char → Bool) (cs : List Char) :
    (((many p).seq atEnd).rests cs).isEmpty = !cs.all p := by
  rw [rests_many_seq fun _ _ _ => rfl, rests, ways, isEmpty_dropWhile]
  split
  · next h => rw [h]; rfl
  · next h => rw [Bool.eq_false_iff.mpr h]; rfl

theorem findSome?_cuts (hq : ∀ c ∈ cs, q c = true) (f : List Char → List Char) :
    ((cuts q cs).findSome? fun s => if !s.2.all p then none else some (f s.1)) =
      some (f (dropEnd p cs)) := by
  induction cs generalizing f with
  | nil => rfl
  | cons c cs ih =>
    obtain ⟨hc, hcs⟩ := List.forall_mem_cons.mp hq
    rw [cuts, if_pos hc, List.findSome?_cons, List.findSome?_map, dropEnd_cons, isEmpty_dropEnd,
      List.all_cons, Bool.and_comm]
    cases cs.all p && p c with
    | true => rfl
    | false => exact ih hcs fun run => f (c :: run)

theorem findSome?_ways_few (hc : q c = true) (hq : ∀ c ∈ cs, q c = true) :
    ((((one q).seq (few q)).ways (c :: cs)).findSome? fun s =>
      if (((many p).seq atEnd).rests s.2).isEmpty then none else some s.1) =
      some (c :: dropEnd p cs) := by
  simp only [ways, if_pos hc, List.flatMap_singleton, List.findSome?_map, isEmpty_rests_many_atEnd]
  exact findSome?_cuts hq fun run => [c] ++ run

end Pattern

end Mockup.Text
