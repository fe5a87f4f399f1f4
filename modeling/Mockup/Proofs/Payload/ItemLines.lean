import Mockup.Proofs.Payload.Bullets
import Mockup.Proofs.Text.Lines
import Mockup.Proofs.Text.LowerCase
import Mockup.Proofs.Text.Pattern

/-! The lines of notes that give items. Such a line is a marker, white space and a rest, after white
space. Where the white space ends and the rest starts makes no difference to the item, and neither
does white space at the end of the line, so that a pattern that leaves both out captures the same
items. -/

namespace Mockup.Bullets

open Text

variable {c : Char} {cs raw rest line gap marker opening : List Char} {notes t : String}

section Marks

def isBullet (c : Char) : Bool := c = '-' || c = '*' || c = '•'

def isCloser (c : Char) : Bool := c = '.' || c = ')'

inductive Marker : List Char → Prop where
  | bullet {c : Char} (h : isBullet c = true) : Marker [c]
  | number {run : List Char} {c : Char} (hne : run ≠ []) (hrun : Consists isDecimalDigit run)
      (h : isCloser c = true) : Marker (run ++ [c])

/-- White space, a marker and white space again, which may be missing only before the marker. -/
def Opening (opening : List Char) : Prop :=
  ∃ lead marker gap, opening = lead ++ (marker ++ gap) ∧ Consists isBlank lead ∧ Marker marker ∧
    gap ≠ [] ∧ Consists isBlank gap

/-- The items of lines, in their order. A line that opens an item gives what cleaning leaves of
the rest, if it leaves something, and no other line gives any. -/
inductive Itemized : List (List Char) → List String → Prop where
  | nil : Itemized [] []
  | item {opening rest : List Char} {lines : List (List Char)} {items : List String}
      (hopening : Opening opening) (hne : clean rest ≠ []) (later : Itemized lines items) :
      Itemized ((opening ++ rest) :: lines) (String.ofList (clean rest) :: items)
  | other {line : List Char} {lines : List (List Char)} {items : List String}
      (hnone : ∀ opening rest, Opening opening → line = opening ++ rest → clean rest = [])
      (later : Itemized lines items) : Itemized (line :: lines) items

theorem bullet_apart_blank : Apart isBullet isBlank := by
  intro c h
  simp only [isBullet, Bool.or_eq_true, decide_eq_true_eq] at h
  rcases h with (rfl | rfl) | rfl <;> decide

theorem bullet_apart_digit : Apart isBullet isDecimalDigit := by
  intro c h
  simp only [isBullet, Bool.or_eq_true, decide_eq_true_eq] at h
  rcases h with (rfl | rfl) | rfl <;> decide

theorem closer_apart_digit : Apart isCloser isDecimalDigit := by
  intro c h
  simp only [isCloser, Bool.or_eq_true, decide_eq_true_eq] at h
  rcases h with rfl | rfl <;> decide

theorem digit_apart_blank : Apart isDecimalDigit isBlank := by
  intro c h
  obtain ⟨r, hr, hdigit⟩ := List.any_eq_true.mp h
  rw [← Bool.not_eq_true]
  intro hc
  obtain ⟨b, hb, hblank⟩ := List.any_eq_true.mp (inRanges_of_isBlank hc)
  have hapart : ∀ b ∈ blankRanges, ∀ r ∈ decimalDigitRanges, b.2 < r.1 ∨ r.2 < b.1 := by
    decide +kernel
  have hdisjoint := hapart b hb r hr
  rw [Bool.and_eq_true, decide_eq_true_eq, decide_eq_true_eq] at hblank hdigit
  omega

theorem Marker.head?_not_blank (h : Marker marker) (cs : List Char) :
    ∀ c ∈ (marker ++ cs).head?, isBlank c = false := by
  cases h with
  | @bullet c hc => exact forall_mem_head?_cons (bullet_apart_blank c hc) cs
  | number hne hrun =>
    rw [List.append_assoc]
    exact head?_run hne hrun digit_apart_blank _

theorem afterMarker?_cons (c : Char) (cs : List Char) :
    afterMarker? (c :: cs) =
      if isBullet c then some cs
      else if isDecimalDigit c then
        match cs.dropWhile isDecimalDigit with
        | d :: rest => if isCloser d then some rest else none
        | [] => none
      else none := rfl

theorem Marker.afterMarker?_append (h : Marker marker) (cs : List Char) :
    afterMarker? (marker ++ cs) = some cs := by
  cases h with
  | bullet hc => exact if_pos hc
  | @number run d hne hrun hd =>
    obtain ⟨c, run, rfl⟩ := List.exists_cons_of_ne_nil hne
    obtain ⟨hc, hrun⟩ := List.forall_mem_cons.mp hrun
    have hstop : ∀ c ∈ (d :: cs).head?, isDecimalDigit c = false :=
      forall_mem_head?_cons (closer_apart_digit d hd) cs
    rw [List.append_assoc, List.cons_append, afterMarker?_cons, bullet_apart_digit.symm c hc,
      if_neg Bool.false_ne_true, if_pos hc, List.singleton_append, dropWhile_run hrun hstop]
    exact if_pos hd

theorem exists_marker (h : afterMarker? cs = some rest) :
    ∃ marker, Marker marker ∧ cs = marker ++ rest := by
  cases cs with
  | nil => cases h
  | cons c cs =>
    rw [afterMarker?_cons] at h
    split at h
    · next hc =>
      obtain rfl := Option.some.inj h
      exact ⟨[c], .bullet hc, rfl⟩
    · split at h
      · next hc =>
        split at h
        · next d tail hdrop =>
          split at h
          · next hd =>
            obtain rfl := Option.some.inj h
            obtain ⟨run, hcs, hrun, -⟩ := exists_run isDecimalDigit cs
            rw [hdrop] at hcs
            refine ⟨c :: run ++ [d], .number (List.cons_ne_nil c run) ?_ hd, ?_⟩
            · exact List.forall_mem_cons.mpr ⟨hc, hrun⟩
            · rw [hcs, List.append_assoc]
              rfl
          · cases h
        · cases h
      · cases h

theorem itemOfLine?_eq_some_iff : itemOfLine? line = some raw ↔
    ∃ lead marker c, line = lead ++ (marker ++ c :: raw) ∧ Consists isBlank lead ∧ Marker marker ∧
      isBlank c = true := by
  constructor
  · intro h
    rw [itemOfLine?] at h
    split at h
    · next c rest hafter =>
      split at h
      · next hc =>
        obtain rfl := Option.some.inj h
        obtain ⟨lead, hline, hlead, -⟩ := exists_run isBlank line
        obtain ⟨marker, hmarker, hcs⟩ := exists_marker hafter
        exact ⟨lead, marker, c, by rw [← hcs]; exact hline, hlead, hmarker, hc⟩
      · cases h
    · cases h
  · rintro ⟨lead, marker, c, rfl, hlead, hmarker, hc⟩
    rw [itemOfLine?, dropWhile_run hlead (hmarker.head?_not_blank _), hmarker.afterMarker?_append]
    exact if_pos hc

end Marks

section Rests

def item? (raw : List Char) : Option String :=
  if clean raw = [] then none else some (String.ofList (clean raw))

theorem ofLine?_eq_bind (line : List Char) : ofLine? line = (itemOfLine? line).bind item? := by
  rw [ofLine?]
  cases itemOfLine? line with
  | none => rfl
  | some raw =>
    rw [Option.map_some, Option.bind_some, item?]
    cases clean raw <;> rfl

theorem not_mem_of_blank {m : Char} (hm : isBlank m = false) (hgap : Consists isBlank gap) :
    m ∉ gap := by
  intro hmem
  rw [hgap m hmem] at hm
  cases hm

theorem clean_congr {a b : List Char} (h : trim (unpaired a) = trim (unpaired b)) :
    clean a = clean b := by
  unfold unpaired at h
  unfold clean
  rw [h]

theorem clean_prepend (hgap : Consists isBlank gap) (rest : List Char) :
    clean (gap ++ rest) = clean rest := by
  refine clean_congr ?_
  rw [unpaired, deletePairs_prepend (not_mem_of_blank rfl hgap),
    deletePairs_prepend (not_mem_of_blank rfl hgap)]
  exact strip_prepend hgap

theorem clean_append (hgap : Consists isBlank gap) (rest : List Char) :
    clean (rest ++ gap) = clean rest := by
  refine clean_congr ?_
  rw [unpaired, deletePairs_append (not_mem_of_blank rfl hgap),
    deletePairs_append (not_mem_of_blank rfl hgap)]
  exact strip_append hgap

theorem clean_blank (hcs : Consists isBlank cs) : clean cs = [] := by
  rw [← List.append_nil cs, clean_prepend hcs]
  rfl

theorem clean_trim (cs : List Char) : clean (trim cs) = clean cs := by
  obtain ⟨front, back, hcs, hfront, hback⟩ := exists_strip_eq isBlank cs
  conv_rhs => rw [hcs, clean_append hback, clean_prepend hfront]
  rfl

theorem item?_congr {a b : List Char} (h : clean a = clean b) : item? a = item? b := by
  rw [item?, item?, h]

theorem item?_eq_some_iff :
    item? raw = some t ↔ clean raw ≠ [] ∧ String.ofList (clean raw) = t := by
  rw [item?]
  split
  · next h => exact iff_of_false nofun fun hitem => hitem.1 h
  · next h => rw [Option.some.injEq, and_iff_right h]

/-- The item that is read from the first white space behind the marker on is that of every rest. -/
theorem ofLine?_eq_some_iff : ofLine? line = some t ↔
    ∃ opening rest, line = opening ++ rest ∧ Opening opening ∧ item? rest = some t := by
  rw [ofLine?_eq_bind, Option.bind_eq_some_iff]
  constructor
  · rintro ⟨raw, hraw, ht⟩
    obtain ⟨lead, marker, c, rfl, hlead, hmarker, hc⟩ := itemOfLine?_eq_some_iff.mp hraw
    have hgap : Consists isBlank [c] := List.forall_mem_singleton.mpr hc
    refine ⟨lead ++ (marker ++ [c]), raw, ?_,
      ⟨lead, marker, [c], rfl, hlead, hmarker, List.cons_ne_nil c [], hgap⟩, ht⟩
    simp only [List.append_assoc, List.singleton_append]
  · rintro ⟨opening, rest, rfl, ⟨lead, marker, gap, rfl, hlead, hmarker, hne, hgap⟩, ht⟩
    obtain ⟨c, gap, rfl⟩ := List.exists_cons_of_ne_nil hne
    obtain ⟨hc, hgap⟩ := List.forall_mem_cons.mp hgap
    refine ⟨gap ++ rest, itemOfLine?_eq_some_iff.mpr ⟨lead, marker, c, ?_, hlead, hmarker, hc⟩, ?_⟩
    · simp only [List.append_assoc, List.cons_append]
    · rw [item?_congr (clean_prepend hgap rest), ht]

theorem ofLine?_eq_none_iff : ofLine? line = none ↔
    ∀ opening rest, Opening opening → line = opening ++ rest → clean rest = [] := by
  rw [Option.eq_none_iff_forall_ne_some]
  constructor
  · intro h opening rest hopening hline
    by_contra hne
    exact h _ (ofLine?_eq_some_iff.mpr
      ⟨opening, rest, hline, hopening, item?_eq_some_iff.mpr ⟨hne, rfl⟩⟩)
  · intro h t ht
    obtain ⟨opening, rest, hline, hopening, hitem⟩ := ofLine?_eq_some_iff.mp ht
    exact (item?_eq_some_iff.mp hitem).1 (h opening rest hopening hline)

theorem itemized_iff {lines : List (List Char)} {items : List String} :
    Itemized lines items ↔ items = lines.filterMap ofLine? := by
  constructor
  · intro h
    induction h with
    | nil => rfl
    | @item opening rest lines items hopening hne _ ih =>
      have hline : ofLine? (opening ++ rest) = some (String.ofList (clean rest)) :=
        ofLine?_eq_some_iff.mpr ⟨opening, rest, rfl, hopening, item?_eq_some_iff.mpr ⟨hne, rfl⟩⟩
      rw [List.filterMap_cons_some hline, ih]
    | other hnone _ ih => rw [List.filterMap_cons_none (ofLine?_eq_none_iff.mpr hnone), ih]
  · rintro rfl
    induction lines with
    | nil => exact .nil
    | cons line lines ih =>
      cases hline : ofLine? line with
      | none =>
        rw [List.filterMap_cons_none hline]
        exact .other (ofLine?_eq_none_iff.mp hline) ih
      | some t =>
        obtain ⟨opening, rest, rfl, hopening, hitem⟩ := ofLine?_eq_some_iff.mp hline
        obtain ⟨hne, rfl⟩ := item?_eq_some_iff.mp hitem
        rw [List.filterMap_cons_some hline]
        exact .item hopening hne ih

theorem ofLine?_append (hgap : Consists isBlank gap) (line : List Char) :
    ofLine? (line ++ gap) = ofLine? line := by
  ext t
  rw [ofLine?_eq_some_iff, ofLine?_eq_some_iff]
  constructor
  · rintro ⟨opening, rest, hline, hopening, hitem⟩
    rcases List.append_eq_append_iff.mp hline with ⟨front, rfl, hrest⟩ | ⟨front, hfront, rfl⟩
    · -- the rest is part of the white space, and so there is no item
      have hblank : Consists isBlank rest := fun c hc => hgap c (hrest ▸ List.mem_append_right _ hc)
      exact absurd (clean_blank hblank) (item?_eq_some_iff.mp hitem).1
    · refine ⟨opening, front, hfront, hopening, ?_⟩
      rw [← hitem, item?_congr (clean_append hgap front)]
  · rintro ⟨opening, rest, rfl, hopening, hitem⟩
    refine ⟨opening, rest ++ gap, List.append_assoc .., hopening, ?_⟩
    rw [item?_congr (clean_append hgap rest), hitem]

theorem ofLine?_dropReturn (line : List Char) : ofLine? (dropReturn line) = ofLine? line := by
  rw [dropReturn]
  split
  · next hlast =>
    have hgap : Consists isBlank ['\r'] := List.forall_mem_singleton.mpr rfl
    have hline : line.dropLast ++ ['\r'] = line := List.dropLast_append_getLast? _ hlast
    conv_rhs => rw [← hline, ofLine?_append hgap]
  · rfl

theorem extract_eq_filterMap (notes : String) :
    extract notes = (lineTexts notes.toList).filterMap ofLine? :=
  filterMap_lines rfl ofLine?_dropReturn notes.toList

end Rests

section Captured

open Pattern

def mark : Pattern :=
  (one isBullet).either ((one isDecimalDigit).seq ((many isDecimalDigit).seq (one isCloser)))

def staysInLine (c : Char) : Bool := c ≠ '\n'

def itemLine : Capture where
  before := (many isBlank).seq (mark.seq ((one isBlank).seq (many isBlank)))
  group := (one staysInLine).seq (few staysInLine)
  after := (many isBlank).seq atEnd

theorem rests_mark (cs : List Char) : mark.rests cs = (afterMarker? cs).toList := by
  cases cs with
  | nil => rfl
  | cons c cs =>
    -- no digit closes a number, so that all digits belong to it
    have hnumber : ((many isDecimalDigit).seq (one isCloser)).rests cs =
        (one isCloser).rests (cs.dropWhile isDecimalDigit) := by
      refine rests_many_seq (fun d ds hd => ?_) cs
      rw [rests_one_cons, closer_apart_digit.symm d hd, if_neg Bool.false_ne_true]
    rw [mark, rests_either, rests_one_cons, rests_seq, rests_one_cons, afterMarker?_cons]
    cases hdigit : isDecimalDigit c with
    | true =>
      rw [bullet_apart_digit.symm c hdigit, if_neg Bool.false_ne_true, if_pos rfl,
        List.flatMap_singleton, hnumber]
      cases cs.dropWhile isDecimalDigit with
      | nil => rfl
      | cons d rest =>
        rw [rests_one_cons]
        cases hd : isCloser d <;> simp [hd]
    | false => cases isBullet c <;> rfl

theorem rests_before (line : List Char) :
    itemLine.before.rests line = (itemOfLine? line).elim [] (many isBlank).rests := by
  have hmark (d : Char) (ds : List Char) (hd : isBlank d = true) :
      (mark.seq ((one isBlank).seq (many isBlank))).rests (d :: ds) = [] := by
    have hnone : afterMarker? (d :: ds) = none := by
      rw [afterMarker?_cons, bullet_apart_blank.symm d hd, digit_apart_blank.symm d hd]
      rfl
    rw [rests_seq, rests_mark, hnone]
    rfl
  rw [itemLine, rests_many_seq hmark, rests_seq, rests_mark, itemOfLine?]
  cases afterMarker? (line.dropWhile isBlank) with
  | none => rfl
  | some after =>
    rw [Option.toList_some, List.flatMap_singleton, rests_seq]
    cases after with
    | nil => rfl
    | cons c rest =>
      rw [rests_one_cons]
      cases hc : isBlank c <;> simp [hc]

theorem grasp?_itemLine (hline : '\n' ∉ c :: cs) :
    itemLine.grasp? (c :: cs) = some (c :: dropEnd isBlank cs) := by
  have hstays : ∀ d ∈ c :: cs, staysInLine d = true := fun d hd =>
    decide_eq_true fun hnewline => hline (hnewline ▸ hd)
  obtain ⟨hc, hcs⟩ := List.forall_mem_cons.mp hstays
  exact findSome?_ways_few hc hcs

theorem captured?_eq_bind (line : List Char) : itemLine.captured? line =
    (itemOfLine? line).bind fun raw => ((many isBlank).rests raw).findSome? itemLine.grasp? := by
  rw [Capture.captured?, rests_before]
  cases itemOfLine? line <;> rfl

theorem newline_not_mem_of_itemOfLine? (hraw : itemOfLine? line = some raw)
    (hline : '\n' ∉ line) : '\n' ∉ raw := by
  obtain ⟨lead, marker, c, rfl, -⟩ := itemOfLine?_eq_some_iff.mp hraw
  intro hmem
  exact hline (List.mem_append_right _ (List.mem_append_right _ (List.mem_cons_of_mem _ hmem)))

theorem captured?_of_filled (hline : '\n' ∉ line) (hraw : itemOfLine? line = some raw)
    (hfilled : trim raw ≠ []) : itemLine.captured? line = some (trim raw) := by
  have hnewline := newline_not_mem_of_itemOfLine? hraw hline
  have hdrop : raw.dropWhile isBlank ≠ [] := by
    intro hnil
    exact hfilled (strip_eq_nil_iff.mpr (List.dropWhile_eq_nil_iff.mp hnil))
  obtain ⟨c, cs, hcs⟩ := List.exists_cons_of_ne_nil hdrop
  have hrest : '\n' ∉ c :: cs := by
    rw [← hcs]
    exact fun hmem => hnewline ((List.dropWhile_suffix _).subset hmem)
  have hfirst : isBlank c = false := head?_dropWhile (by rw [hcs]; rfl)
  have htrim : trim raw = c :: dropEnd isBlank cs := by
    rw [trim, strip, hcs, dropEnd_cons, hfirst, Bool.and_false, if_neg Bool.false_ne_true]
  obtain ⟨others, hrests, -⟩ := exists_rests_many isBlank raw
  rw [captured?_eq_bind, hraw, Option.bind_some, hrests, hcs, List.findSome?_cons,
    grasp?_itemLine hrest, htrim]

theorem blank_of_captured? {taken : List Char} (hline : '\n' ∉ line)
    (hraw : itemOfLine? line = some raw) (hblank : Consists isBlank raw)
    (htaken : itemLine.captured? line = some taken) : Consists isBlank taken := by
  have hnewline := newline_not_mem_of_itemOfLine? hraw hline
  obtain ⟨others, hrests, hothers⟩ := exists_rests_many isBlank raw
  have hsuffix (r : List Char) (hr : r ∈ (many isBlank).rests raw) : r <:+ raw := by
    rw [hrests] at hr
    rcases List.mem_cons.mp hr with rfl | hr
    · exact List.dropWhile_suffix _
    · exact hothers r hr
  rw [captured?_eq_bind, hraw, Option.bind_some] at htaken
  obtain ⟨r, hr, hgrasp⟩ := List.exists_of_findSome?_eq_some htaken
  have hsubset := (hsuffix r hr).subset
  cases r with
  | nil => cases hgrasp
  | cons c cs =>
    rw [grasp?_itemLine fun hmem => hnewline (hsubset hmem)] at hgrasp
    obtain rfl := Option.some.inj hgrasp
    obtain ⟨hc, hcs⟩ := List.forall_mem_cons.mp fun d hd => hblank d (hsubset hd)
    exact List.forall_mem_cons.mpr ⟨hc, fun d hd => hcs d ((isPrefix_dropEnd _ _).subset hd)⟩

theorem captured?_bind_item? (hline : '\n' ∉ line) :
    (itemLine.captured? line).bind item? = ofLine? line := by
  rw [ofLine?_eq_bind]
  cases hraw : itemOfLine? line with
  | none => rw [captured?_eq_bind, hraw, Option.bind_none, Option.bind_none]
  | some raw =>
    by_cases hfilled : trim raw = []
    · have hblank : Consists isBlank raw := strip_eq_nil_iff.mp hfilled
      have hnone {cs : List Char} (hcs : Consists isBlank cs) : item? cs = none :=
        if_pos (clean_blank hcs)
      rw [Option.bind_some, hnone hblank, Option.bind_eq_none_iff]
      exact fun taken htaken => hnone (blank_of_captured? hline hraw hblank htaken)
    · rw [captured?_of_filled hline hraw hfilled, Option.bind_some, Option.bind_some,
        item?_congr (clean_trim raw)]

/-- The items of notes are those of the lines that open one, in the order of the lines; it makes no
difference whether the last line keeps its carriage return. The pattern finds the same lines, and
what it captures cleans to the same items. After the end of a line, the items of what follows are
added. -/
theorem extract_tells_lines (notes : String) :
    (∀ items, Itemized (lines notes.toList) items ↔ items = extract notes) ∧
      (∀ items, Itemized (lineTexts notes.toList) items ↔ items = extract notes) ∧
      extract notes = ((lines notes.toList).filterMap itemLine.captured?).filterMap item? ∧
      ∀ more, extract (notes ++ "\n" ++ more) = extract notes ++ extract more := by
  refine ⟨fun items => itemized_iff, fun items => ?_, ?_, fun more => ?_⟩
  · rw [itemized_iff, extract_eq_filterMap]
  · rw [List.filterMap_filterMap]
    exact List.filterMap_congr fun line hline =>
      (captured?_bind_item? (newline_not_mem_of_mem_lines hline)).symm
  · have hmore : (notes ++ "\n" ++ more).toList = notes.toList ++ '\n' :: more.toList := by
      simp
    rw [extract_eq_filterMap, hmore, lineTexts_append_newline, List.filterMap_append,
      ← extract_eq_filterMap, ← extract_eq_filterMap]

/-- A number in other digits, lines without a rest and a carriage return that ends no line. -/
example : extract "\u00a0٣)\u3000drei\r\n-\r\n* \t \n1.\r- vier\r" = ["drei", "- vier"] := by
  decide

end Captured

end Mockup.Bullets
