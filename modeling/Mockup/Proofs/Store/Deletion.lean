import Mockup.Proofs.Files.Agree
import Mockup.Proofs.Files.Inside
import Mockup.Store.Basic

/-! Deleting one bundle by its path. Only a path that is the root with names after it is followed,
however it is spelled, and nothing is removed but what is at the place of those names or below it. -/

namespace Mockup.Files

open Files.Path

namespace Disk

variable {d d' : Disk} {p : Path} {place : Location} {x : Entry}

/-- From one disk to the other, some entries at a place or below it were removed, and no others. -/
structure Removes (place : Location) (d d' : Disk) : Prop where
  home : d'.home = d.home
  entries : ∀ k, d'.entry? k = d.entry? k ∨ place <+: k ∧ d'.entry? k = none

theorem Removes.refl (place : Location) (d : Disk) : Removes place d d := ⟨rfl, fun _ => .inl rfl⟩

theorem removes_filter (d : Disk) (keep : Location → Bool)
    (h : ∀ k, keep k = false → place <+: k) :
    Removes place d { d with entries := d.entries.filter fun p => keep p.1 } := by
  refine ⟨rfl, fun k => ?_⟩
  rw [entry?_filter]
  split
  · next hnil =>
    rw [hnil, entry?_nil]
    exact .inl rfl
  · cases hkeep : keep k with
    | true => exact .inl rfl
    | false => exact .inr ⟨h k hkeep, rfl⟩

theorem removes_removeTree (place : Location) (d : Disk) :
    Removes place d (d.removeTree place) := by
  refine removes_filter d (fun k => !place.isPrefixOf k) fun k hk => ?_
  simpa using hk

theorem removes_clear (place : Location) (d : Disk) : Removes place d (d.clear place) := by
  refine removes_filter d (fun k => k = place || !place.isPrefixOf k) fun k hk => ?_
  rw [Bool.or_eq_false_iff, Bool.not_eq_false'] at hk
  exact List.isPrefixOf_iff_prefix.mp hk.2

theorem entry?_removeTree_below {k : Location} (hk : k ≠ []) (hunder : place <+: k) :
    Disk.entry? (d.removeTree place) k = none := by
  have hfilter := entry?_filter (fun k => !place.isPrefixOf k) d k
  rw [if_neg hk, List.isPrefixOf_iff_prefix.mpr hunder] at hfilter
  exact hfilter

theorem find?_eq_some :
    d.find? p = some x ↔ d.locate p = .ok (d.site p) ∧ d.entry? (d.site p) = some x := by
  unfold find?
  constructor
  · intro h
    cases hlocate : d.locate p with
    | error f =>
      rw [hlocate] at h
      cases h
    | ok l =>
      obtain rfl := eq_site_of_locate hlocate
      rw [hlocate] at h
      exact ⟨rfl, h⟩
  · rintro ⟨hlocate, hentry⟩
    rw [hlocate]
    exact hentry

theorem discard_cases (d : Disk) (p : Path) :
    (d.has p = false ∧ Step.run d (.discard p) = (d, none)) ∨
    (∃ text, d.find? p = some (.file text) ∧
      Step.run d (.discard p) = (d, some .notADirectory)) ∨
    (d.find? p = some .dir ∧ p.endsInDot = false ∧
      Step.run d (.discard p) = (d.removeTree (d.site p), none)) ∨
    (d.find? p = some .dir ∧ p.endsInDot = true ∧
      Step.run d (.discard p) = (d.clear (d.site p), some .invalidArgument)) := by
  rw [Step.run, has]
  cases hfind : d.find? p with
  | none => exact .inl ⟨rfl, rfl⟩
  | some x =>
    obtain ⟨hlocate, hentry⟩ := find?_eq_some.mp hfind
    rw [Option.isSome_some, if_pos rfl, removeDir, hlocate]
    simp only [hentry]
    cases x with
    | file text => exact .inr (.inl ⟨text, rfl, rfl⟩)
    | dir =>
      cases p.endsInDot with
      | false => exact .inr (.inr (.inl ⟨rfl, rfl, rfl⟩))
      | true => exact .inr (.inr (.inr ⟨rfl, rfl, rfl⟩))

end Disk

theorem Path.not_mem_parts_parent (p : Path) : .name ".." ∉ p.parts := by
  rw [parts_eq, List.mem_append, not_or, List.mem_map]
  constructor
  · rcases front_cases p with hfront | hfront | hfront <;> simp [hfront]
  · rintro ⟨piece, -, hpiece⟩
    by_cases hparent : piece = ".."
    · rw [partOf, if_pos hparent] at hpiece
      cases hpiece
    · rw [partOf_of_ne hparent] at hpiece
      exact hparent (Part.name.inj hpiece)

end Mockup.Files

namespace Mockup.Store

open Files Path Disk

variable {s : Store} {d : Disk} {p : Path} {names : List String}

/-- The path is the root with names after it, none of which steps up. -/
structure Below (s : Store) (p : Path) (names : List String) : Prop where
  parts : p.parts = s.root.parts ++ names.map .name
  down : ".." ∉ names

theorem Below.isInside (h : s.Below p names) : s.root.isInside p = true :=
  isInside_iff.mpr ⟨_, h.parts, by simp⟩

theorem Below.site (h : s.Below p names) (hroot : s.root.text ≠ "") (d : Disk) :
    d.site p = d.site s.root ++ names := by
  obtain ⟨names', hparts, hsite⟩ := exists_names_of_isInside hroot h.isInside
  rw [h.parts] at hparts
  have hnames : names = names' :=
    (List.map_inj_right fun _ _ => Part.name.inj).mp (List.append_cancel_left hparts)
  rw [hsite, hnames]

theorem exists_below (hroot : s.root.text ≠ "") (h : s.root.isInside p = true) :
    ∃ names, s.Below p names := by
  obtain ⟨names, hparts, -⟩ := exists_names_of_isInside hroot h
  refine ⟨names, hparts, fun hparent => not_mem_parts_parent p ?_⟩
  rw [hparts]
  exact List.mem_append_right _ (List.mem_map_of_mem hparent)

theorem delete_of_not_inside (h : s.root.isInside p = false) (d : Disk) :
    s.delete d p = (.error (.outside p s.root), d) := by
  rw [delete, deleting, h, if_neg Bool.false_ne_true]
  rfl

theorem delete_of_inside (h : s.root.isInside p = true) (d : Disk) :
    s.delete d p = finish () (Act.run d (.perform (.discard p) (.cannotRemove p))) := by
  rw [delete, deleting, if_pos h]

theorem delete_cases (h : s.root.isInside p = true) (d : Disk) :
    (d.has p = false ∧ s.delete d p = (.ok (), d)) ∨
    (∃ text, d.find? p = some (.file text) ∧
      s.delete d p = (.error (.cannotRemove p .notADirectory), d)) ∨
    (d.find? p = some .dir ∧ p.endsInDot = false ∧
      s.delete d p = (.ok (), d.removeTree (d.site p))) ∨
    (d.find? p = some .dir ∧ p.endsInDot = true ∧
      s.delete d p = (.error (.cannotRemove p .invalidArgument), d.clear (d.site p))) := by
  rw [delete_of_inside h, Act.run]
  rcases discard_cases d p with ⟨hhas, hrun⟩ | ⟨text, hfind, hrun⟩ | ⟨hfind, hdot, hrun⟩ |
    ⟨hfind, hdot, hrun⟩
  · exact .inl ⟨hhas, by rw [hrun]; rfl⟩
  · exact .inr (.inl ⟨text, hfind, by rw [hrun]; rfl⟩)
  · exact .inr (.inr (.inl ⟨hfind, hdot, by rw [hrun]; rfl⟩))
  · exact .inr (.inr (.inr ⟨hfind, hdot, by rw [hrun]; rfl⟩))

theorem Below.removes (h : s.Below p names) (hroot : s.root.text ≠ "") (d : Disk) :
    Removes (d.site s.root ++ names) d (s.delete d p).2 := by
  rw [← h.site hroot d]
  rcases delete_cases h.isInside d with ⟨-, hrun⟩ | ⟨-, -, hrun⟩ | ⟨-, -, hrun⟩ | ⟨-, -, hrun⟩
  · rw [hrun]
    exact .refl _ d
  · rw [hrun]
    exact .refl _ d
  · rw [hrun]
    exact removes_removeTree _ d
  · rw [hrun]
    exact removes_clear _ d

theorem Below.delete_absent (h : s.Below p names) (habsent : d.has p = false) :
    s.delete d p = (.ok (), d) := by
  rcases delete_cases h.isInside d with ⟨-, hrun⟩ | ⟨_, hfind, -⟩ | ⟨hfind, -⟩ | ⟨hfind, -⟩
  · exact hrun
  all_goals
    rw [Disk.has, hfind] at habsent
    cases habsent

theorem Below.delete_dir (h : s.Below p names) (hroot : s.root.text ≠ "")
    (hfind : d.find? p = some .dir) (hdot : p.endsInDot = false) :
    s.delete d p = (.ok (), d.removeTree (d.site s.root ++ names)) := by
  rw [← h.site hroot d]
  rcases delete_cases h.isInside d with ⟨habsent, -⟩ | ⟨_, hfile, -⟩ | ⟨-, -, hrun⟩ | ⟨-, hdot', -⟩
  · rw [Disk.has, hfind] at habsent
    cases habsent
  · rw [hfind] at hfile
    cases hfile
  · exact hrun
  · rw [hdot] at hdot'
    cases hdot'

/-- Deleting stays in the store. Whatever the path, it is refused or fails and the disk is as it
was, or it is the root with names after it, none of which steps up, and only what is at their place
or below it is gone. The names lead down from where the root leads; what is not there is deleted
already, and a directory is removed with all that is in it. A directory whose path ends in a dot is
emptied before the system refuses to remove it. -/
theorem delete_stays_below (hroot : s.root.text ≠ "") (d : Disk) (p : Path) :
    ((∃ e, (s.delete d p).1 = .error e) ∧ (s.delete d p).2 = d ∨
      ∃ names, s.Below p names ∧ Removes (d.site s.root ++ names) d (s.delete d p).2) ∧
    ∀ names, s.Below p names →
      (∀ l, d.locate p = .ok l → l = d.site s.root ++ names) ∧
      (d.has p = false → s.delete d p = (.ok (), d)) ∧
      (d.find? p = some .dir → p.endsInDot = false →
        (s.delete d p).1 = .ok () ∧
          ∀ k ≠ [], d.site s.root ++ names <+: k → Disk.entry? (s.delete d p).2 k = none) := by
  constructor
  · cases hinside : s.root.isInside p with
    | false =>
      rw [delete_of_not_inside hinside]
      exact .inl ⟨⟨_, rfl⟩, rfl⟩
    | true =>
      obtain ⟨names, hbelow⟩ := exists_below hroot hinside
      exact .inr ⟨names, hbelow, hbelow.removes hroot d⟩
  · intro names hbelow
    refine ⟨fun l hl => ?_, hbelow.delete_absent, fun hfind hdot => ?_⟩
    · rw [eq_site_of_locate hl, hbelow.site hroot]
    · rw [hbelow.delete_dir hroot hfind hdot]
      exact ⟨rfl, fun k hk hunder => entry?_removeTree_below hk hunder⟩

theorem delete_stays_below_demo :
    let s : Store := ⟨⟨"out"⟩, "/p"⟩
    let d : Disk := ⟨[(["out"], .dir), (["out", "a"], .dir), (["out", "a", "f"], .file "x"),
      (["output"], .dir)], []⟩
    s.root.text ≠ "" ∧ (s.delete d ⟨"out//./a/"⟩).1 = .ok () ∧
      (∀ k ≠ [], ["out", "a"] <+: k → Disk.entry? (s.delete d ⟨"out//./a/"⟩).2 k = none) ∧
      (s.delete d ⟨"output"⟩).2 = d := by
  intro s d
  have hroot : s.root.text ≠ "" := by decide
  have hbelow : s.Below ⟨"out//./a/"⟩ ["a"] := ⟨by decide, by decide⟩
  obtain ⟨-, hnames⟩ := delete_stays_below hroot d ⟨"out//./a/"⟩
  obtain ⟨-, -, hdir⟩ := hnames ["a"] hbelow
  obtain ⟨hok, hgone⟩ := hdir (by decide) (by decide)
  have hplace : d.site s.root ++ ["a"] = ["out", "a"] := by decide
  rw [hplace] at hgone
  refine ⟨hroot, hok, hgone, ?_⟩
  rcases (delete_stays_below hroot d ⟨"output"⟩).1 with ⟨-, hkept⟩ | ⟨names, hoff, -⟩
  · exact hkept
  · exact absurd hoff.isInside (by decide)

end Mockup.Store
