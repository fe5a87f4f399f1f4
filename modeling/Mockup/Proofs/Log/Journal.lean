import Mathlib.Data.List.Basic
import Mockup.Log.Journal
import Mockup.Proofs.Files.Disk

/-! Journals over a row of entries. A journal whose file takes one line takes all of them, and the
file ends with a line for each; one whose file takes none leaves the disk as it is. -/

namespace Mockup.Log

open Files (Disk)

def lines (time : String) (entries : List Entry) : String :=
  String.join (entries.map fun e => Event.line { e with timestamp := time })

namespace Journal

variable {j : Journal} {d : Disk}

def Works (j : Journal) (d : Disk) : Prop := ∀ e, (j.log d e).1 = .ok ()

def text (j : Journal) (d : Disk) : String := (d.read j.file).toOption.getD ""

theorem log_cases (j : Journal) (d : Disk) (e : Event) :
    (∃ l, d.locate j.file = .ok l ∧ d.entry? l ≠ some .dir ∧
      j.log d e = (.ok (), d.set l (.file (j.text d ++ e.line)))) ∨
    ((∀ l, d.locate j.file = .ok l → d.entry? l = some .dir) ∧
      ∃ f, j.log d e = (.error (.noFile f), d)) := by
  unfold log text
  rw [Files.Step.run, Disk.put, Disk.read]
  cases hlocate : d.locate j.file with
  | error f => exact .inr ⟨nofun, f, rfl⟩
  | ok l =>
    dsimp only
    cases hentry : d.entry? l with
    | none => exact .inl ⟨l, rfl, by simp [hentry], rfl⟩
    | some x =>
      cases x with
      | file old => exact .inl ⟨l, rfl, by simp [hentry], rfl⟩
      | dir => exact .inr ⟨by rintro _ ⟨⟩; exact hentry, .isADirectory, rfl⟩

theorem works_iff : j.Works d ↔ ∃ l, d.locate j.file = .ok l ∧ d.entry? l ≠ some .dir := by
  constructor
  · intro h
    have hany := h { kind := .error, level := .error, message := "", timestamp := "" }
    rcases log_cases j d { kind := .error, level := .error, message := "", timestamp := "" } with
      ⟨l, hlocate, hfree, -⟩ | ⟨-, f, hlog⟩
    · exact ⟨l, hlocate, hfree⟩
    · rw [hlog] at hany
      cases hany
  · rintro ⟨l, hlocate, hfree⟩ e
    rcases log_cases j d e with ⟨k, -, -, hlog⟩ | ⟨hdir, -⟩
    · rw [hlog]
    · exact absurd (hdir l hlocate) hfree

theorem text_of_read {t : String} (h : d.read j.file = .ok t) : j.text d = t := by
  rw [text, h]
  rfl

theorem Works.log (h : j.Works d) (e : Event) :
    j.Works (j.log d e).2 ∧ (j.log d e).2.read j.file = .ok (j.text d ++ e.line) := by
  rcases log_cases j d e with ⟨l, hlocate, hfree, hlog⟩ | ⟨-, f, hlog⟩
  · have hset := Disk.entry?_set (Disk.ne_nil_of_not_dir hfree) d (.file (j.text d ++ e.line))
    have hlocate' : (d.set l (.file (j.text d ++ e.line))).locate j.file = .ok l :=
      Disk.locate_mono (d := d) rfl (fun _ => Disk.dir_set hfree _) hlocate
    rw [hlog]
    refine ⟨works_iff.mpr ⟨l, hlocate', by simp [hset]⟩, ?_⟩
    simp [Disk.read, hlocate', hset]
  · have hok := h e
    rw [hlog] at hok
    cases hok

theorem Works.logAll (h : j.Works d) (time : String) (entries : List Entry) :
    j.Works (j.logAll time d entries) ∧
      j.text (j.logAll time d entries) = j.text d ++ lines time entries := by
  induction entries generalizing d with
  | nil => exact ⟨h, String.append_empty.symm⟩
  | cons e rest ih =>
    obtain ⟨hworks, hread⟩ := h.log { e with timestamp := time }
    obtain ⟨hworks', htext⟩ := ih hworks
    refine ⟨hworks', htext.trans ?_⟩
    rw [text_of_read hread, lines, lines, List.map_cons, String.join_cons, String.append_assoc]

theorem Works.read_logAll (h : j.Works d) (time : String) {entries : List Entry}
    (hne : entries ≠ []) :
    (j.logAll time d entries).read j.file = .ok (j.text d ++ lines time entries) := by
  obtain ⟨init, last, rfl⟩ := (List.eq_nil_or_concat' entries).resolve_left hne
  obtain ⟨hworks, htext⟩ := h.logAll time init
  have hread := (hworks.log { last with timestamp := time }).2
  rw [htext] at hread
  rw [Journal.logAll, List.foldl_concat]
  refine Eq.trans hread ?_
  simp [lines, String.append_assoc]

end Journal

end Mockup.Log
