import Mockup.Proofs.Files.Made
import Mockup.Proofs.Log.Event
import Mockup.Proofs.Log.Journal
import Mockup.Proofs.Text.Lines

/-! Calls to the journals of one directory. Whatever texts the calls carry and however the journals
were named, the file ends with one line for each call, in the order of the calls, and each line is
read as the event of its call. -/

namespace Mockup.Log

open Files (Disk Location Path Step)
open Files.Path Files.Disk

inductive Call where
  | generationStart (project : String) (candidates : List String)
  | attemptStarted (candidate : String) (attempt : Nat)
  | attemptFailed (candidate reason : String)
  | responseReceived (candidate response : String)
  | normalization (candidate : String) (screens : Option Nat)
  | validation (candidate : String) (passed : Bool) (cause : Option String)
  | fallback (reason : String)
  | generationEnd (source : String) (screens : Nat)
  | bundlePublished (slug url : String) (reused : Bool)
  | error (message : String) (cause : Option String)
  | other (entry : Entry)

namespace Call

def entry : Call → Entry
  | generationStart project candidates => .generationStart project candidates
  | attemptStarted candidate attempt => .attemptStarted candidate attempt
  | attemptFailed candidate reason => .attemptFailed candidate reason
  | responseReceived candidate response => .responseReceived candidate response
  | normalization candidate screens => .normalization candidate screens
  | validation candidate passed cause => .validation candidate passed cause
  | fallback reason => .fallback reason
  | generationEnd source screens => .generationEnd source screens
  | bundlePublished slug url reused => .bundlePublished slug url reused
  | error message cause => .error message cause
  | other entry => entry

/-- Whether the call can be read again, which is asked only of entries of the caller's own. -/
def Told : Call → Prop
  | other entry => entry.Legible
  | _ => True

open Entry (legible_of_none legible_of_described)
open Json.Value Json.Members.Simple

theorem Told.legible {c : Call} (h : c.Told) : c.entry.Legible := by
  cases c with
  | generationStart project candidates =>
    exact legible_of_described rfl (.cons (simple_text project) (.cons (simple_texts candidates) nil))
  | attemptStarted candidate attempt =>
    exact legible_of_described rfl (.cons (simple_text candidate) (.cons (simple_count attempt) nil))
  | attemptFailed candidate reason =>
    exact legible_of_described rfl (.cons (simple_text candidate) (.cons (simple_text reason) nil))
  | responseReceived candidate response =>
    have hlength := simple_count response.utf8ByteSize
    exact legible_of_described rfl
      (.cons (simple_text candidate) (.cons (simple_text response) (.cons hlength nil)))
  | normalization candidate screens =>
    have hscreens : ((screens.map count).getD .null).Simple := by
      cases screens with
      | none => exact simple_null
      | some n => exact simple_count n
    exact legible_of_described rfl (.cons (simple_text candidate) (.cons hscreens nil))
  | validation candidate passed cause =>
    exact legible_of_described rfl
      (.cons (simple_text candidate) (.cons (simple_bool passed) (.cons (simple_optional cause) nil)))
  | fallback reason =>
    exact legible_of_described rfl (.cons (simple_text reason) nil)
  | generationEnd source screens =>
    exact legible_of_described rfl (.cons (simple_text source) (.cons (simple_count screens) nil))
  | bundlePublished slug url reused =>
    exact legible_of_described rfl
      (.cons (simple_text slug) (.cons (simple_text url) (.cons (simple_bool reused) nil)))
  | error message cause =>
    cases cause with
    | none => exact legible_of_none rfl
    | some t => exact legible_of_described rfl (.cons (simple_text t) nil)
  | other entry => exact h

end Call

structure Timed where
  call : Call
  time : String

def Timed.event (c : Timed) : Event := { c.call.entry with timestamp := c.time }

theorem decode_event {c : Timed} (h : c.call.Told) :
    Event.record.decoder.decode c.event.compact = .ok c.event :=
  (Event.decode_compact_iff h.legible.plain).mpr h.legible

def linesOf (calls : List Timed) : String := String.join (calls.map fun c => c.event.line)

theorem linesOf_concat (calls : List Timed) (c : Timed) :
    linesOf (calls ++ [c]) = linesOf calls ++ c.event.line := by
  have hlast : String.join [c.event.line] = c.event.line := by
    rw [String.join_cons, String.join_nil, String.append_empty]
  rw [linesOf, linesOf, List.map_append, String.join_append, List.map_singleton, hlast]

/-- The directory, by the path that is given for it, has its log in this place. Where there is no
file yet, the path does not lead through the place of the file. -/
structure Leads (place : Location) (d : Disk) (dir : Path) : Prop where
  site : d.site (Journal.directory dir) = place
  apart : d.entry? (place ++ [Journal.fileName]) = none →
    place ++ [Journal.fileName] ∉ d.stops (Journal.directory dir)

/-- What comes of making journals for one directory and calling them: the disk, the journals that
could be made, and the calls. -/
inductive Run (place : Location) (start : Disk) : Disk → List Journal → List Timed → Prop where
  | start : Run place start start [] []
  | create {d : Disk} {journals : List Journal} {calls : List Timed} {dir : Path} :
    Run place start d journals calls → Leads place d dir →
      Run place start (Journal.create d dir).2
        ((Journal.create d dir).1.toOption.toList ++ journals) calls
  | log {d : Disk} {journals : List Journal} {calls : List Timed} {j : Journal} (c : Timed) :
    Run place start d journals calls → j ∈ journals →
      Run place start (j.log d c.event).2 journals (calls ++ [c])

theorem isName_logs : IsName "logs" := ⟨by decide, by decide, by decide, by decide⟩

theorem isName_fileName : IsName Journal.fileName := ⟨by decide, by decide, by decide, by decide⟩

namespace Journal

variable {j : Journal} {place : Location} {d d' : Disk} {dir : Path} {text : String}

def Opens (j : Journal) (place : Location) (d : Disk) : Prop :=
  ∃ dir : Path, j.file = (directory dir).join fileName ∧ d.IsOpen (directory dir) ∧
    d.site (directory dir) = place

theorem Opens.locate (h : j.Opens place d) : d.locate j.file = .ok (place ++ [fileName]) := by
  obtain ⟨dir, hfile, hopen, hsite⟩ := h
  rw [hfile, (locate_join isName_fileName).mpr ⟨hopen, by decide, rfl⟩, hsite]

theorem Opens.entry?_place (h : j.Opens place d) : d.entry? place = some .dir := by
  obtain ⟨dir, -, hopen, hsite⟩ := h
  obtain ⟨-, -, hdir⟩ := (isOpen_join isName_logs).mp hopen
  rw [← hsite, directory, site_join isName_logs, hdir]

theorem Opens.mono (h : j.Opens place d) (hhome : d'.home = d.home)
    (hdirs : ∀ k, d.entry? k = some .dir → d'.entry? k = some .dir) : j.Opens place d' := by
  obtain ⟨dir, hfile, hopen, hsite⟩ := h
  exact ⟨dir, hfile, hopen.mono hhome fun k _ => hdirs k, (site_congr hhome _).trans hsite⟩

theorem opens_of_create (h : d.Usable) (hsite : d.site (directory dir) = place)
    (hcreate : create d dir = (.ok j, d')) : j.Opens place d' := by
  unfold create at hcreate
  split at hcreate
  · next d₁ hmake =>
    cases hcreate
    have hhome : d'.home = d.home := by
      have hwidens := widens_run_makeDirs (d := d) (p := dir) isName_logs
      rw [directory] at hmake
      rw [hmake] at hwidens
      exact hwidens.home
    exact ⟨dir, rfl, isOpen_of_makeDirs h isName_logs hmake, (site_congr hhome _).trans hsite⟩
  · cases hcreate

theorem create_snd (d : Disk) (dir : Path) :
    (create d dir).2 = (Step.run d (.makeDirs (directory dir))).1 := by
  unfold create
  split
  · next hmake => rw [hmake]
  · next hmake => rw [hmake]

theorem text_of_hasText (h : j.Opens place d) (htext : d.HasText (place ++ [fileName]) text) :
    j.text d = text := by
  rw [Journal.text, Disk.read, h.locate]
  rcases htext with hfile | ⟨rfl, hnone⟩
  · simp [hfile, Except.toOption]
  · simp [hnone, Except.toOption]

theorem Opens.log_eq (h : j.Opens place d) (htext : d.HasText (place ++ [fileName]) text)
    (e : Event) :
    j.log d e = (.ok (), d.set (place ++ [fileName]) (.file (text ++ e.line))) := by
  rcases log_cases j d e with ⟨l, hlocate, -, hlog⟩ | ⟨hdir, -⟩
  · obtain rfl : place ++ [fileName] = l := Except.ok.inj (h.locate.symm.trans hlocate)
    rw [hlog, text_of_hasText h htext]
  · exact absurd (hdir _ h.locate) htext.not_dir

end Journal

section Rows

variable {place : Location} {start d : Disk} {journals : List Journal} {calls : List Timed}
  {j : Journal} {dir : Path} {old text : String}

/-- The file in this place has the text, and the journals write to it. -/
structure Holds (place : Location) (d : Disk) (journals : List Journal) (text : String) : Prop where
  usable : d.Usable
  text : d.HasText (place ++ [Journal.fileName]) text
  opens : ∀ j ∈ journals, j.Opens place d

theorem Holds.create (h : Holds place d journals text) (hdir : Leads place d dir) :
    Holds place (Journal.create d dir).2
      ((Journal.create d dir).1.toOption.toList ++ journals) text := by
  have hwidens : Widens (d.stops (Journal.directory dir)) d (Journal.create d dir).2 := by
    rw [Journal.create_snd]
    exact widens_run_makeDirs isName_logs
  refine ⟨?_, h.text.widens hwidens hdir.apart, fun j hj => ?_⟩
  · rw [Journal.create_snd]
    exact h.usable.makeDirs isName_logs dir
  · rcases List.mem_append.mp hj with hnew | hmade
    · rcases hcreate : Journal.create d dir with ⟨_ | j', d'⟩
      · simp [hcreate, Except.toOption] at hnew
      · obtain rfl : j = j' := by simpa [hcreate, Except.toOption] using hnew
        exact Journal.opens_of_create h.usable hdir.site hcreate
    · exact (h.opens j hmade).mono hwidens.home fun k => hwidens.of_some

/-- The step of a call: it is answered, and its line is behind the text. -/
theorem Holds.log (h : Holds place d journals text) (hj : j ∈ journals) (e : Event) :
    Holds place (j.log d e).2 journals (text ++ e.line) := by
  have hopens := h.opens j hj
  have hfree := h.text.not_dir
  have hshort : ∀ name ∈ place ++ [Journal.fileName], isTooLong name = false := by
    rw [List.forall_mem_append, List.forall_mem_singleton]
    exact ⟨h.usable.short.short_names hopens.entry?_place, by decide⟩
  rw [hopens.log_eq h.text e]
  exact ⟨h.usable.set hshort hfree _, hasText_set (ne_nil_of_not_dir hfree) d _,
    fun j' hj' => (h.opens j' hj').mono rfl fun _ => dir_set hfree _⟩

theorem Run.holds (h : Run place start d journals calls) (huse : start.Usable)
    (hold : start.HasText (place ++ [Journal.fileName]) old) :
    Holds place d journals (old ++ linesOf calls) := by
  induction h with
  | start => exact ⟨huse, by rwa [linesOf, List.map_nil, String.join_nil, String.append_empty], nofun⟩
  | create _ hdir ih => exact ih.create hdir
  | log c _ hj ih =>
    rw [linesOf_concat, ← String.append_assoc]
    exact ih.log hj c.event

theorem Holds.works (h : Holds place d journals text) (hj : j ∈ journals) : j.Works d :=
  fun e => by rw [(h.opens j hj).log_eq h.text e]

end Rows

def EndsLine (text : String) : Prop := text = "" ∨ ∃ before, text = before ++ "\n"

theorem endsLine_append_line (text : String) (e : Event) : EndsLine (text ++ e.line) :=
  .inr ⟨text ++ e.compact, (String.append_assoc ..).symm⟩

theorem lines_append_line {text : String} (h : EndsLine text) (e : Event) :
    Text.lines (text ++ e.line).toList = Text.lines text.toList ++ [e.compact.toList] := by
  have hnewline : "\n".toList = ['\n'] := rfl
  have hline : Text.lines (e.compact.toList ++ ['\n']) = [e.compact.toList] :=
    Text.lines_of_not_mem Event.newline_not_mem_compact Event.return_not_mem_compact
  rcases h with rfl | ⟨before, rfl⟩
  · rw [Event.line, String.empty_append, String.toList_append, hnewline, hline]
    rfl
  · rw [Event.line, String.toList_append, String.toList_append, String.toList_append, hnewline,
      List.append_assoc, List.singleton_append, Text.lines_append_newline, hline]

theorem lines_append_linesOf {old : String} (hold : EndsLine old) (calls : List Timed) :
    EndsLine (old ++ linesOf calls) ∧ Text.lines (old ++ linesOf calls).toList =
      Text.lines old.toList ++ calls.map fun c => c.event.compact.toList := by
  -- from the end, where the lines are added
  induction calls using List.reverseRecOn with
  | nil =>
    rw [linesOf, List.map_nil, String.join_nil, String.append_empty, List.map_nil, List.append_nil]
    exact ⟨hold, rfl⟩
  | append_singleton calls c ih =>
    obtain ⟨hends, hlines⟩ := ih
    rw [linesOf_concat, ← String.append_assoc, lines_append_line hends, hlines, List.map_append,
      List.append_assoc]
    exact ⟨endsLine_append_line _ _, rfl⟩

/-- The log is what was there and one line for each call, in the order of the calls. All journals
that were made for the directory go on working and read this text; no line holds a newline before
its end, and each is read as the event of its call. -/
theorem calls_told {place : Location} {start d : Disk} {old : String} {journals : List Journal}
    {calls : List Timed} (huse : start.Usable)
    (hold : start.HasText (place ++ [Journal.fileName]) old) (hends : EndsLine old)
    (hrun : Run place start d journals calls) :
    d.HasText (place ++ [Journal.fileName]) (old ++ linesOf calls) ∧
    (∀ j ∈ journals, j.Works d ∧ j.text d = old ++ linesOf calls) ∧
    Text.lines (old ++ linesOf calls).toList =
      Text.lines old.toList ++ calls.map (fun c => c.event.compact.toList) ∧
    ∀ c ∈ calls, '\n' ∉ c.event.compact.toList ∧
      (c.call.Told → Event.record.decoder.decode c.event.compact = .ok c.event) := by
  have hholds := hrun.holds huse hold
  refine ⟨hholds.text, fun j hj => ⟨hholds.works hj, ?_⟩, (lines_append_linesOf hends calls).2,
    fun c _ => ⟨Event.newline_not_mem_compact, decode_event⟩⟩
  exact Journal.text_of_hasText (hholds.opens j hj) hholds.text

def sharedDisk : Disk where
  entries := [(["a"], .dir), (["a", "logs"], .dir),
    (["a", "logs", "generation.jsonl"], .file "\x7b\x7d\n")]

def sharedJournal : Journal := ⟨⟨"a/logs/generation.jsonl"⟩⟩

def dottedJournal : Journal := ⟨⟨"./a/logs/generation.jsonl"⟩⟩

def sharedCalls : List Timed :=
  [⟨.responseReceived "m" "No\r\n\"JSON\"", "t"⟩, ⟨.error "Line\u2028" none, "u"⟩]

theorem exists_run_shared :
    ∃ d, Run ["a", "logs"] sharedDisk d [dottedJournal, sharedJournal] sharedCalls := by
  have hplain : Leads ["a", "logs"] sharedDisk ⟨"a"⟩ := ⟨by decide, by decide⟩
  have hdotted : Leads ["a", "logs"] (Journal.create sharedDisk ⟨"a"⟩).2 ⟨"./a"⟩ :=
    ⟨by decide, by decide⟩
  have hmade := Run.create (.create .start hplain) hdotted
  have hjournals : (Journal.create (Journal.create sharedDisk ⟨"a"⟩).2 ⟨"./a"⟩).1.toOption.toList ++
      ((Journal.create sharedDisk ⟨"a"⟩).1.toOption.toList ++ []) =
        [dottedJournal, sharedJournal] := by decide
  rw [hjournals] at hmade
  have hfirst := hmade.log ⟨.responseReceived "m" "No\r\n\"JSON\"", "t"⟩
    (List.mem_cons_of_mem _ (List.mem_singleton_self sharedJournal))
  exact ⟨_, hfirst.log ⟨.error "Line\u2028" none, "u"⟩ List.mem_cons_self⟩

theorem calls_told_shared :
    ∃ d, dottedJournal.text d = "\x7b\x7d\n" ++ linesOf sharedCalls ∧
      (Text.lines ("\x7b\x7d\n" ++ linesOf sharedCalls).toList).length = 3 ∧
      ∀ c ∈ sharedCalls, Event.record.decoder.decode c.event.compact = .ok c.event := by
  have huse : sharedDisk.Usable := ⟨by decide, by unfold Disk.Short; decide⟩
  have hold : sharedDisk.HasText (["a", "logs"] ++ [Journal.fileName]) "\x7b\x7d\n" :=
    .inl (by decide)
  obtain ⟨d, hrun⟩ := exists_run_shared
  obtain ⟨-, htexts, hlines, hcalls⟩ := calls_told huse hold (.inr ⟨"\x7b\x7d", by decide⟩) hrun
  refine ⟨d, (htexts dottedJournal List.mem_cons_self).2, ?_, fun c hc => (hcalls c hc).2 ?_⟩
  · rw [hlines]
    decide
  · simp only [sharedCalls, List.mem_cons, List.not_mem_nil, or_false] at hc
    rcases hc with rfl | rfl <;> trivial

end Mockup.Log
