import Mockup.Proofs.Json.Draft
import Mockup.Proofs.Json.Numeral

/-! Text read back, whatever space it is laid out with. What is written for a value is read again
if the value has no more levels than may be read, and is refused otherwise. Compact and indented
text are two ways to lay a value out. -/

namespace Mockup.Json

namespace Value

mutual

/-- How deep lists and objects are nested in the value. -/
def levels : Value → Nat
  | .list items => levelsOfItems items + 1
  | .object m => levelsOfMembers m + 1
  | _ => 0

def levelsOfItems : List Value → Nat
  | [] => 0
  | v :: vs => max (levels v) (levelsOfItems vs)

def levelsOfMembers : List (String × Value) → Nat
  | [] => 0
  | (_, v) :: m => max (levels v) (levelsOfMembers m)

end

inductive RealFree : Value → Prop where
  | null : RealFree .null
  | bool (b : Bool) : RealFree (.bool b)
  | int (k : Integer) : RealFree (.number (.int k))
  | text (s : String) : RealFree (.text s)
  | list {items : List Value} : (∀ v ∈ items, RealFree v) → RealFree (.list items)
  | object {m : Members} : (∀ p ∈ m, RealFree p.2) → RealFree (.object m)

theorem levelsOfItems_le_iff {vs : List Value} {n : Nat} :
    levelsOfItems vs ≤ n ↔ ∀ v ∈ vs, v.levels ≤ n := by
  induction vs with
  | nil => simp [levelsOfItems]
  | cons v vs ih => rw [levelsOfItems, Nat.max_le, ih, List.forall_mem_cons]

theorem levelsOfMembers_le_iff {m : Members} {n : Nat} :
    levelsOfMembers m ≤ n ↔ ∀ p ∈ m, p.2.levels ≤ n := by
  induction m with
  | nil => simp [levelsOfMembers]
  | cons p m ih => rw [levelsOfMembers, Nat.max_le, ih, List.forall_mem_cons]

theorem levels_list_le_iff {vs : List Value} {n : Nat} :
    (Value.list vs).levels ≤ n + 1 ↔ ∀ v ∈ vs, v.levels ≤ n := by
  rw [levels, Nat.add_le_add_iff_right, levelsOfItems_le_iff]

theorem levels_object_le_iff {m : Members} {n : Nat} :
    (Value.object m).levels ≤ n + 1 ↔ ∀ p ∈ m, p.2.levels ≤ n := by
  rw [levels, Nat.add_le_add_iff_right, levelsOfMembers_le_iff]

end Value

/-- Where a text has space outside its strings: before what stands in brackets and before the
closing bracket, at their depths, and after a colon. -/
structure Spacing where
  line : Nat → List Char
  gap : List Char
  isSpace_line : ∀ depth, ∀ c ∈ line depth, Reader.isSpace c = true
  isSpace_gap : ∀ c ∈ gap, Reader.isSpace c = true

namespace Spacing

def compact : Spacing := ⟨fun _ => [], [], nofun, nofun⟩

def indented : Spacing :=
  ⟨Value.newline, [' '], Reader.isSpace_newline, List.forall_mem_singleton.mpr rfl⟩

end Spacing

namespace Value

variable (sp : Spacing)

mutual

def spaced (depth : Nat) : Value → List Char
  | .null => ['n', 'u', 'l', 'l']
  | .bool true => ['t', 'r', 'u', 'e']
  | .bool false => ['f', 'a', 'l', 's', 'e']
  | .number n => n.print
  | .text s => quoted s
  | .list [] => ['[', ']']
  | .list (v :: vs) =>
    '[' :: (sp.line (depth + 1) ++ (spaced (depth + 1) v ++
      (spacedItems (depth + 1) vs ++ (sp.line depth ++ [']']))))
  | .object [] => ['\x7b', '\x7d']
  | .object ((k, v) :: m) =>
    '\x7b' :: (sp.line (depth + 1) ++ (quoted k ++ ':' :: (sp.gap ++ spaced (depth + 1) v) ++
      (spacedMembers (depth + 1) m ++ (sp.line depth ++ ['\x7d']))))

def spacedItems (depth : Nat) : List Value → List Char
  | [] => []
  | v :: vs => ',' :: (sp.line depth ++ (spaced depth v ++ spacedItems depth vs))

def spacedMembers (depth : Nat) : List (String × Value) → List Char
  | [] => []
  | (k, v) :: m =>
    ',' :: (sp.line depth ++ (quoted k ++ ':' :: (sp.gap ++ spaced depth v) ++
      spacedMembers depth m))

end

theorem printItems_cons (v : Value) (vs : List Value) :
    printItems (v :: vs) = v.print ++ vs.flatMap fun w => ',' :: w.print := by
  induction vs generalizing v with
  | nil => simp [printItems]
  | cons w vs ih => rw [printItems, ih, List.flatMap_cons, List.cons_append]

theorem printMembers_cons (k : String) (v : Value) (m : Members) :
    printMembers ((k, v) :: m) =
      quoted k ++ ':' :: v.print ++ m.flatMap fun p => ',' :: (quoted p.1 ++ ':' :: p.2.print) := by
  induction m generalizing k v with
  | nil => simp [printMembers]
  | cons p m ih =>
    rw [printMembers, ih, List.flatMap_cons]
    simp

theorem indentedItems_cons (depth : Nat) (v : Value) (vs : List Value) :
    indentedItems depth (v :: vs) = v.printIndented depth ++
      vs.flatMap fun w => ',' :: (newline depth ++ w.printIndented depth) := by
  induction vs generalizing v with
  | nil => simp [indentedItems]
  | cons w vs ih =>
    rw [indentedItems, ih, List.flatMap_cons]
    simp

theorem indentedMembers_cons (depth : Nat) (k : String) (v : Value) (m : Members) :
    indentedMembers depth ((k, v) :: m) = quoted k ++ ':' :: ' ' :: v.printIndented depth ++
      m.flatMap fun p =>
        ',' :: (newline depth ++ (quoted p.1 ++ ':' :: ' ' :: p.2.printIndented depth)) := by
  induction m generalizing k v with
  | nil => simp [indentedMembers]
  | cons p m ih =>
    rw [indentedMembers, ih, List.flatMap_cons]
    simp

mutual

theorem spaced_compact (depth : Nat) : (v : Value) → v.spaced .compact depth = v.print
  | .null => rfl
  | .bool true => rfl
  | .bool false => rfl
  | .number _ => rfl
  | .text _ => rfl
  | .list [] => rfl
  | .list (v :: vs) => by
    rw [spaced, print, printItems_cons, spaced_compact (depth + 1) v,
      spacedItems_compact (depth + 1) vs]
    simp [Spacing.compact]
  | .object [] => rfl
  | .object ((k, v) :: m) => by
    rw [spaced, print, printMembers_cons, spaced_compact (depth + 1) v,
      spacedMembers_compact (depth + 1) m]
    simp [Spacing.compact]

theorem spacedItems_compact (depth : Nat) :
    (vs : List Value) → spacedItems .compact depth vs = vs.flatMap fun v => ',' :: v.print
  | [] => rfl
  | v :: vs => by
    rw [spacedItems, spaced_compact depth v, spacedItems_compact depth vs, List.flatMap_cons]
    rfl

theorem spacedMembers_compact (depth : Nat) :
    (m : List (String × Value)) →
      spacedMembers .compact depth m = m.flatMap fun p => ',' :: (quoted p.1 ++ ':' :: p.2.print)
  | [] => rfl
  | (k, v) :: m => by
    rw [spacedMembers, spaced_compact depth v, spacedMembers_compact depth m, List.flatMap_cons]
    simp [Spacing.compact]

end

mutual

theorem spaced_indented (depth : Nat) :
    (v : Value) → v.spaced .indented depth = v.printIndented depth
  | .null => rfl
  | .bool true => rfl
  | .bool false => rfl
  | .number _ => rfl
  | .text _ => rfl
  | .list [] => rfl
  | .list (v :: vs) => by
    rw [spaced, printIndented, indentedItems_cons, spaced_indented (depth + 1) v,
      spacedItems_indented (depth + 1) vs]
    simp [Spacing.indented]
  | .object [] => rfl
  | .object ((k, v) :: m) => by
    rw [spaced, printIndented, indentedMembers_cons, spaced_indented (depth + 1) v,
      spacedMembers_indented (depth + 1) m]
    simp [Spacing.indented]

theorem spacedItems_indented (depth : Nat) :
    (vs : List Value) → spacedItems .indented depth vs =
      vs.flatMap fun v => ',' :: (newline depth ++ v.printIndented depth)
  | [] => rfl
  | v :: vs => by
    rw [spacedItems, spaced_indented depth v, spacedItems_indented depth vs, List.flatMap_cons]
    simp [Spacing.indented]

theorem spacedMembers_indented (depth : Nat) :
    (m : List (String × Value)) → spacedMembers .indented depth m =
      m.flatMap fun p =>
        ',' :: (newline depth ++ (quoted p.1 ++ ':' :: ' ' :: p.2.printIndented depth))
  | [] => rfl
  | (k, v) :: m => by
    rw [spacedMembers, spaced_indented depth v, spacedMembers_indented depth m, List.flatMap_cons]
    simp [Spacing.indented]

end

end Value

namespace Reader

variable {α β σ : Type} {p q : Prop} {x : α} {y : β} {rest rest' : List Char}
  {outcome : Except Fault (α × List Char)}

structure ReadsIff (p : Prop) (outcome : Except Fault (α × List Char)) (x : α)
    (rest : List Char) : Prop where
  reads : p → outcome = .ok (x, rest)
  fails : ¬ p → ∃ e, outcome = .error e

namespace ReadsIff

theorem of_eq (hp : p) (h : outcome = .ok (x, rest)) : ReadsIff p outcome x rest :=
  ⟨fun _ => h, fun hnot => absurd hp hnot⟩

theorem congr (h : ReadsIff p outcome x rest) (hiff : p ↔ q) : ReadsIff q outcome x rest :=
  ⟨fun hq => h.reads (hiff.mpr hq), fun hq => h.fails fun hp => hq (hiff.mp hp)⟩

theorem map {r : Reader α} {cs : List Char} (h : ReadsIff p (r cs) x rest) (f : α → β) :
    ReadsIff p (r.map f cs) (f x) rest := by
  refine ⟨fun hp => ?_, fun hp => ?_⟩
  · rw [Reader.map, h.reads hp]
  · obtain ⟨e, he⟩ := h.fails hp
    exact ⟨e, by rw [Reader.map, he]⟩

theorem andThen {r : Reader α} {f : α → Reader β} {cs : List Char}
    (h : ReadsIff p (r cs) x rest) (h' : ReadsIff q (f x rest) y rest') :
    ReadsIff (p ∧ q) (r.andThen f cs) y rest' := by
  refine ⟨fun hpq => ?_, fun hpq => ?_⟩
  · rw [Reader.andThen, h.reads hpq.1]
    exact h'.reads hpq.2
  · by_cases hp : p
    · obtain ⟨e, he⟩ := h'.fails fun hq => hpq ⟨hp, hq⟩
      refine ⟨e, ?_⟩
      rw [Reader.andThen, h.reads hp]
      exact he
    · obtain ⟨e, he⟩ := h.fails hp
      exact ⟨e, by rw [Reader.andThen, he]⟩

/-- A list or an object: there has to be a level for it, and one less is left for what is in it. -/
theorem nested {v : Value} {q : Nat → Prop} {o : Nat → Except Fault (α × List Char)}
    (hopen : 0 < v.levels) (hlevels : ∀ n, v.levels ≤ n + 1 ↔ q n)
    (hzero : ∃ e, o 0 = .error e) (hsucc : ∀ n, ReadsIff (q n) (o (n + 1)) x rest)
    (n : Nat) : ReadsIff (v.levels ≤ n) (o n) x rest := by
  cases n with
  | zero => exact ⟨fun h => absurd h (Nat.not_le_of_lt hopen), fun _ => hzero⟩
  | succ n => exact (hsucc n).congr (hlevels n).symm

end ReadsIff

theorem isSpace_of_isNumeral {c : Char} (h : Text.isNumeral c = true) : isSpace c = false := by
  rw [← Bool.not_eq_true]
  intro hspace
  simp only [isSpace, Bool.or_eq_true, decide_eq_true_eq] at hspace
  rcases hspace with ((rfl | rfl) | rfl) | rfl <;> exact absurd h (by decide)

variable {sp : Spacing}

theorem exists_start (sp : Spacing) (v : Value) (depth : Nat) :
    ∃ c cs, v.spaced sp depth = c :: cs ∧ isSpace c = false ∧ c ≠ ']' ∧
      (v ≠ .null → c ≠ 'n') := by
  cases v with
  | null => exact ⟨_, _, rfl, by decide, by decide, fun h => absurd rfl h⟩
  | bool b => cases b <;> exact ⟨_, _, rfl, by decide, by decide, fun _ => by decide⟩
  | text s => exact ⟨_, _, rfl, by decide, by decide, fun _ => by decide⟩
  | list vs => cases vs <;> exact ⟨_, _, rfl, by decide, by decide, fun _ => by decide⟩
  | object m =>
    rcases m with _ | ⟨⟨k, v⟩, m⟩ <;> exact ⟨_, _, rfl, by decide, by decide, fun _ => by decide⟩
  | number n =>
    obtain ⟨c, cs, hprint⟩ := List.exists_cons_of_ne_nil n.print_ne_nil
    have hnumeral : Text.isNumeral c = true :=
      Number.isNumeral_of_mem_print (n := n) (by rw [hprint]; exact List.mem_cons_self)
    have hne {b : Char} (hb : Text.isNumeral b = false) : c ≠ b := by
      rintro rfl
      rw [hb] at hnumeral
      cases hnumeral
    exact ⟨c, cs, hprint, isSpace_of_isNumeral hnumeral, hne (by decide), fun _ => hne (by decide)⟩

theorem skipSpace_spaced (v : Value) (depth : Nat) (rest : List Char) :
    skipSpace (v.spaced sp depth ++ rest) = v.spaced sp depth ++ rest := by
  obtain ⟨c, cs, hprint, hspace, -, -⟩ := exists_start sp v depth
  rw [hprint, List.cons_append, skipSpace_cons hspace]

theorem skipSpace_line (sp : Spacing) (depth : Nat) (cs : List Char) :
    skipSpace (sp.line depth ++ cs) = skipSpace cs := skipSpace_append (sp.isSpace_line depth) cs

def memberText (sp : Spacing) (depth : Nat) (p : String × Value) : List Char :=
  quoted p.1 ++ ':' :: (sp.gap ++ p.2.spaced sp depth)

theorem memberText_append (sp : Spacing) (depth : Nat) (p : String × Value) (rest : List Char) :
    memberText sp depth p ++ rest =
      quoted p.1 ++ ':' :: (sp.gap ++ (p.2.spaced sp depth ++ rest)) := by
  rw [memberText, List.append_assoc, List.cons_append, List.append_assoc]

theorem ends_spacedItems (sp : Spacing) (depth depth' : Nat) (vs : List Value) (rest : List Char) :
    Ends (Value.spacedItems sp depth vs ++ (sp.line depth' ++ ']' :: rest)) := by
  cases vs with
  | nil =>
    rw [Value.spacedItems, List.nil_append]
    exact (ends_bracket rest).space (sp.isSpace_line depth')
  | cons v vs => exact ends_comma _

theorem ends_spacedMembers (sp : Spacing) (depth depth' : Nat) (m : Members) (rest : List Char) :
    Ends (Value.spacedMembers sp depth m ++ (sp.line depth' ++ '\x7d' :: rest)) := by
  cases m with
  | nil =>
    rw [Value.spacedMembers, List.nil_append]
    exact (ends_brace rest).space (sp.isSpace_line depth')
  | cons p m => exact ends_comma _

theorem length_le_spacedItems (sp : Spacing) (depth : Nat) (vs : List Value) :
    vs.length ≤ (Value.spacedItems sp depth vs).length := by
  induction vs with
  | nil => exact Nat.zero_le _
  | cons v vs ih =>
    simp only [Value.spacedItems, List.length_cons, List.length_append]
    omega

theorem length_le_spacedMembers (sp : Spacing) (depth : Nat) (m : Members) :
    m.length ≤ (Value.spacedMembers sp depth m).length := by
  induction m with
  | nil => exact Nat.zero_le _
  | cons p m ih =>
    simp only [Value.spacedMembers, List.length_cons, List.length_append]
    omega

section Items

variable {item : Reader β} {g : α → Value} {k : α → β} {xs : List α} {n depth depth' fuel : Nat}

theorem moreItems_line (v : Value) (rest : List Char) :
    moreItems item (fuel + 1) (',' :: (sp.line depth ++ (v.spaced sp depth' ++ rest))) =
      (item.andThen fun x => (moreItems item fuel).map (x :: ·)) (v.spaced sp depth' ++ rest) := by
  obtain ⟨c, cs, hprint, hspace, hclose, -⟩ := exists_start sp v depth'
  rw [← moreItems_comma_skipSpace, skipSpace_line, hprint, List.cons_append,
    skipSpace_cons hspace, moreItems_comma hspace hclose]

theorem moreItems_spaced
    (hitem : ∀ x ∈ xs, ∀ rest, Ends rest →
      ReadsIff ((g x).levels ≤ n) (item ((g x).spaced sp depth ++ rest)) (k x) rest)
    (hfuel : xs.length < fuel) (rest : List Char) :
    ReadsIff (∀ x ∈ xs, (g x).levels ≤ n)
      (moreItems item fuel
        (Value.spacedItems sp depth (xs.map g) ++ (sp.line depth' ++ ']' :: rest))) (xs.map k)
      rest := by
  induction xs generalizing fuel with
  | nil =>
    obtain ⟨fuel, rfl⟩ := Nat.exists_eq_add_one_of_ne_zero (Nat.ne_zero_of_lt hfuel)
    have hread : moreItems item (fuel + 1) (sp.line depth' ++ ']' :: rest) = .ok ([], rest) := by
      rw [← moreItems_skipSpace, skipSpace_line]
      rfl
    exact .of_eq (by simp) hread
  | cons x xs ih =>
    obtain ⟨fuel, rfl⟩ := Nat.exists_eq_add_one_of_ne_zero (Nat.ne_zero_of_lt hfuel)
    rw [List.forall_mem_cons] at hitem
    -- the item ends where the space before the next one or before the bracket begins
    have hfirst := hitem.1 _ (ends_spacedItems sp depth depth' (xs.map g) rest)
    have hmore := ih hitem.2 (Nat.lt_of_succ_lt_succ hfuel)
    have hread := hfirst.andThen (f := fun y => (moreItems item fuel).map (y :: ·))
      (hmore.map (k x :: ·))
    refine .congr ?_ List.forall_mem_cons.symm
    rw [List.map_cons, Value.spacedItems, List.cons_append, List.append_assoc, List.append_assoc,
      moreItems_line]
    exact hread

def listBody (sp : Spacing) (depth : Nat) : List Value → List Char
  | [] => [']']
  | v :: vs =>
    sp.line (depth + 1) ++ (v.spaced sp (depth + 1) ++
      (Value.spacedItems sp (depth + 1) vs ++ (sp.line depth ++ [']'])))

theorem spaced_list (depth : Nat) (vs : List Value) :
    Value.spaced sp depth (.list vs) = '[' :: listBody sp depth vs := by
  cases vs <;> rfl

theorem items_spaced (n depth : Nat)
    (hitem : ∀ x ∈ xs, ∀ rest, Ends rest →
      ReadsIff ((g x).levels ≤ n) (item ((g x).spaced sp (depth + 1) ++ rest)) (k x) rest)
    (rest : List Char) :
    ReadsIff (∀ x ∈ xs, (g x).levels ≤ n) (items item (listBody sp depth (xs.map g) ++ rest))
      (xs.map k) rest := by
  cases xs with
  | nil => exact .of_eq (by simp) rfl
  | cons x xs =>
    rw [List.forall_mem_cons] at hitem
    have hends := ends_spacedItems sp (depth + 1) depth (xs.map g) rest
    have hlength : xs.length ≤ (Value.spacedItems sp (depth + 1) (xs.map g)).length := by
      have hle := length_le_spacedItems sp (depth + 1) (xs.map g)
      rwa [List.length_map] at hle
    have hread := (hitem.1 _ hends).andThen
      (f := fun y r => ((moreItems item (r.length + 1)).map (y :: ·)) r)
      ((moreItems_spaced hitem.2
        (by rw [List.length_append]; omega) rest).map (k x :: ·))
    obtain ⟨c, cs, hprint, hspace, hclose, -⟩ := exists_start sp (g x) (depth + 1)
    have hstart : items item (listBody sp depth ((x :: xs).map g) ++ rest) =
        items item ((g x).spaced sp (depth + 1) ++
          (Value.spacedItems sp (depth + 1) (xs.map g) ++ (sp.line depth ++ ']' :: rest))) := by
      rw [List.map_cons, listBody, ← items_skipSpace, List.append_assoc, skipSpace_line,
        items_skipSpace]
      simp
    refine .congr ?_ List.forall_mem_cons.symm
    rw [hstart, hprint, List.cons_append, items_cons hspace hclose]
    rw [hprint, List.cons_append] at hread
    exact hread

end Items

section Members

variable {member : σ → Reader σ} {s s' s₁ : σ} {ps : Members} {key : String} {v : Value}
  {n depth depth' fuel : Nat}

/-- The members take one state to the other, each of them if it has not too many levels. -/
inductive Chain (sp : Spacing) (member : σ → Reader σ) (n depth : Nat) : σ → Members → σ → Prop where
  | nil (s : σ) : Chain sp member n depth s [] s
  | cons {s s₁ s' : σ} {p : String × Value} {ps : Members}
      (here : ∀ rest, Ends rest →
        ReadsIff (p.2.levels ≤ n) (member s (memberText sp depth p ++ rest)) s₁ rest)
      (more : Chain sp member n depth s₁ ps s') : Chain sp member n depth s (p :: ps) s'

theorem moreMembers_text (h : Chain sp member n depth s ps s') (hfuel : ps.length < fuel)
    (rest : List Char) :
    ReadsIff (∀ p ∈ ps, p.2.levels ≤ n)
      (moreMembers member fuel s
        (Value.spacedMembers sp depth ps ++ (sp.line depth' ++ '\x7d' :: rest))) s' rest := by
  induction h generalizing fuel with
  | nil s =>
    obtain ⟨fuel, rfl⟩ := Nat.exists_eq_add_one_of_ne_zero (Nat.ne_zero_of_lt hfuel)
    have hread : moreMembers member (fuel + 1) s (sp.line depth' ++ '\x7d' :: rest) =
        .ok (s, rest) := by
      rw [← moreMembers_skipSpace, skipSpace_line]
      rfl
    exact .of_eq (by simp) hread
  | @cons s s₁ s' p ps here more ih =>
    obtain ⟨fuel, rfl⟩ := Nat.exists_eq_add_one_of_ne_zero (Nat.ne_zero_of_lt hfuel)
    have hends := ends_spacedMembers sp depth depth' ps rest
    have hread := (here _ hends).andThen (f := moreMembers member fuel)
      (ih (Nat.lt_of_succ_lt_succ hfuel))
    refine .congr ?_ List.forall_mem_cons.symm
    rw [Value.spacedMembers, List.cons_append, List.append_assoc, List.append_assoc,
      List.append_assoc, moreMembers_spaced (sp.isSpace_line depth)]
    rw [memberText, List.append_assoc] at hread
    exact hread

def objectBody (sp : Spacing) (depth : Nat) : Members → List Char
  | [] => ['\x7d']
  | p :: m =>
    sp.line (depth + 1) ++ (memberText sp (depth + 1) p ++
      (Value.spacedMembers sp (depth + 1) m ++ (sp.line depth ++ ['\x7d'])))

theorem spaced_object (depth : Nat) (m : Members) :
    Value.spaced sp depth (.object m) = '\x7b' :: objectBody sp depth m := by
  rcases m with _ | ⟨⟨k, v⟩, m⟩ <;> rfl

theorem members_text (h : Chain sp member n (depth + 1) s ps s') (rest : List Char) :
    ReadsIff (∀ p ∈ ps, p.2.levels ≤ n) (members member s (objectBody sp depth ps ++ rest)) s'
      rest := by
  cases h with
  | nil => exact .of_eq (by simp) rfl
  | @cons _ s₁ _ p ps here more =>
    have hends := ends_spacedMembers sp (depth + 1) depth ps rest
    have hlength := length_le_spacedMembers sp (depth + 1) ps
    have hread := (here _ hends).andThen
      (f := fun s r => moreMembers member (r.length + 1) s r)
      (moreMembers_text more (by rw [List.length_append]; omega) rest)
    have hstart : members member s (objectBody sp depth (p :: ps) ++ rest) =
        members member s (memberText sp (depth + 1) p ++
          (Value.spacedMembers sp (depth + 1) ps ++ (sp.line depth ++ '\x7d' :: rest))) := by
      rw [objectBody, ← members_skipSpace, List.append_assoc, skipSpace_line,
        members_skipSpace]
      simp
    refine .congr ?_ List.forall_mem_cons.symm
    rw [hstart]
    exact hread

end Members

end Reader

end Mockup.Json
