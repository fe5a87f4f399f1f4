import Mockup.Bundle.Script
import Mockup.Proofs.Json.Lexed
import Mockup.Proofs.Json.Quoted
import Mockup.Proofs.Json.Spelling
import Mockup.Proofs.Text.Lines
import Mockup.Proofs.Text.Replace

/-! The data in a script of a bundle. Shielding changes the spelling of strings and nothing else, so
that the data holds the value that it was made of; and no string can close the script element or end
the line. -/

namespace Mockup.Script

open Json Json.Reader Text

variable {c : Char} {cs ds : List Char}

theorem shield_cons (hfirst : ∀ es, c = '<' → cs = '/' :: es → False) (hline : c ≠ '\u2028')
    (hparagraph : c ≠ '\u2029') : shield (c :: cs) = c :: shield cs := by
  rw [shield]
  · rw [if_neg hline, if_neg hparagraph]
  · exact hfirst

theorem shield_line (cs : List Char) : shield ('\u2028' :: cs) = "\\u2028".toList ++ shield cs := by
  rw [shield]
  · rw [if_pos rfl]
  · exact fun ds h _ => absurd h (by decide)

theorem shield_paragraph (cs : List Char) :
    shield ('\u2029' :: cs) = "\\u2029".toList ++ shield cs := by
  rw [shield]
  · rw [if_neg (by decide), if_pos rfl]
  · exact fun ds h _ => absurd h (by decide)

theorem shield_printable (h : ∀ d ∈ cs, ' ' ≤ d ∧ d ≤ '~' ∧ d ≠ '<') (ds : List Char) :
    shield (cs ++ ds) = cs ++ shield ds := by
  induction cs with
  | nil => rfl
  | cons c cs ih =>
    rw [List.forall_mem_cons] at h
    obtain ⟨⟨-, hhigh, hopen⟩, hcs⟩ := h
    have hline : c ≠ '\u2028' := by
      rintro rfl
      exact absurd hhigh (by decide)
    have hparagraph : c ≠ '\u2029' := by
      rintro rfl
      exact absurd hhigh (by decide)
    rw [List.cons_append, shield_cons (fun _ h _ => hopen h) hline hparagraph, ih hcs,
      List.cons_append]

theorem shield_append (h : ds.head? ≠ some '/') : shield (cs ++ ds) = shield cs ++ shield ds := by
  induction cs using shield.induct with
  | case1 => rfl
  | case2 cs ih =>
    rw [List.cons_append, List.cons_append, shield, shield, ih]
    rfl
  | case3 cs hfirst ih =>
    rw [List.cons_append, shield_line, shield_line, ih, List.append_assoc]
  | case4 cs hfirst hline ih =>
    rw [List.cons_append, shield_paragraph, shield_paragraph, ih, List.append_assoc]
  | case5 c cs hfirst hline hparagraph ih =>
    -- a `<` at the end of the first text must not meet a `/` at the start of the second
    have hfirst' (es : List Char) (hc : c = '<') (hes : cs ++ ds = '/' :: es) : False := by
      cases cs with
      | nil => exact h (congrArg List.head? hes)
      | cons d cs => exact hfirst cs hc (by rw [(List.cons.inj hes).1])
    rw [List.cons_append, shield_cons hfirst' hline hparagraph, shield_cons hfirst hline hparagraph,
      ih]
    rfl

theorem shield_quoted_append (s : String) (cs : List Char) :
    shield (quoted s ++ cs) = shield (quoted s) ++ shield cs := by
  have hquote (ds : List Char) : shield ('"' :: ds) = '"' :: shield ds :=
    shield_cons (fun _ h _ => absurd h (by decide)) (by decide) (by decide)
  have hends (ds : List Char) : shield (s.toList.flatMap escapeChar ++ '"' :: ds) =
      shield (s.toList.flatMap escapeChar) ++ '"' :: shield ds := by
    rw [shield_append (by simp), hquote]
  rw [quoted, List.cons_append, hquote, hquote, List.append_assoc]
  exact congrArg ('"' :: ·) ((hends cs).trans (by rw [hends]; simp [shield]))

theorem head?_flatMap_escapeChar {chars tail : List Char}
    (h : (chars.flatMap escapeChar ++ '"' :: tail).head? = some '/') :
    ∃ more, chars = '/' :: more := by
  cases chars with
  | nil => exact absurd h (by simp)
  | cons c chars =>
    rw [List.flatMap_cons, List.append_assoc] at h
    rcases escapeChar_cases c with ⟨hplain, -⟩ | ⟨e, he, -⟩
    · rw [hplain] at h
      obtain rfl : c = '/' := Option.some.inj h
      exact ⟨chars, rfl⟩
    · rw [he] at h
      exact absurd (Option.some.inj h) (by decide)

theorem shield_escapeChar {chars tail : List Char}
    (hfirst : ∀ more, c = '<' → chars = '/' :: more → False) (hline : c ≠ '\u2028')
    (hparagraph : c ≠ '\u2029') :
    shield (escapeChar c ++ (chars.flatMap escapeChar ++ '"' :: tail)) =
      escapeChar c ++ shield (chars.flatMap escapeChar ++ '"' :: tail) := by
  rcases escapeChar_cases c with ⟨hplain, -⟩ | ⟨e, he, hprintable⟩
  · rw [hplain]
    refine shield_cons (fun es hc hes => ?_) hline hparagraph
    obtain ⟨more, hmore⟩ := head?_flatMap_escapeChar (congrArg List.head? hes)
    exact hfirst more hc hmore
  · rw [he]
    exact shield_printable (List.forall_mem_cons.mpr ⟨by decide, hprintable⟩) _

theorem textBody_slash (acc rest : List Char) :
    textBody acc ('\\' :: '/' :: rest) = textBody ('/' :: acc) rest := by
  simp [textBody, shortEscape?]

theorem textBody_line (acc rest : List Char) :
    textBody acc ("\\u2028".toList ++ rest) = textBody ('\u2028' :: acc) rest := by
  have hunit : hexUnit? '2' '0' '2' '8' = some 0x2028 := by decide
  have hread : textBody acc ('\\' :: 'u' :: '2' :: '0' :: '2' :: '8' :: rest) =
      textBody (Char.ofNat 0x2028 :: acc) rest := by
    rw [textBody, hunit]
    rfl
  exact hread

theorem textBody_paragraph (acc rest : List Char) :
    textBody acc ("\\u2029".toList ++ rest) = textBody ('\u2029' :: acc) rest := by
  have hunit : hexUnit? '2' '0' '2' '9' = some 0x2029 := by decide
  have hread : textBody acc ('\\' :: 'u' :: '2' :: '0' :: '2' :: '9' :: rest) =
      textBody (Char.ofNat 0x2029 :: acc) rest := by
    rw [textBody, hunit]
    rfl
  exact hread

theorem textBody_shield (chars acc rest : List Char) :
    textBody acc (shield (chars.flatMap escapeChar ++ ['"']) ++ rest) =
      .ok (acc.reverse ++ chars, rest) := by
  -- The cases are those of shielding, on the string itself: escaping leaves each of the characters
  -- that shielding looks for as it is, and brings none of them up.
  induction chars using shield.induct generalizing acc with
  | case1 => simp [shield, textBody]
  | case2 chars ih =>
    have hshield : shield (('<' :: '/' :: chars).flatMap escapeChar ++ ['"']) =
        '<' :: '\\' :: '/' :: shield (chars.flatMap escapeChar ++ ['"']) := by
      rw [List.flatMap_cons, List.flatMap_cons]
      rfl
    rw [hshield, List.cons_append, textBody_plain (by decide) (by decide) (by decide),
      List.cons_append, List.cons_append, textBody_slash, ih]
    simp
  | case3 chars _ ih =>
    have hescape : escapeChar '\u2028' = ['\u2028'] := by decide
    rw [List.flatMap_cons, hescape, List.append_assoc, List.singleton_append, shield_line,
      List.append_assoc, textBody_line, ih]
    simp
  | case4 chars _ _ ih =>
    have hescape : escapeChar '\u2029' = ['\u2029'] := by decide
    rw [List.flatMap_cons, hescape, List.append_assoc, List.singleton_append, shield_paragraph,
      List.append_assoc, textBody_paragraph, ih]
    simp
  | case5 c chars hfirst hline hparagraph ih =>
    rw [List.flatMap_cons, List.append_assoc, shield_escapeChar hfirst hline hparagraph,
      List.append_assoc, textBody_escapeChar, ih]
    simp

theorem literal_quoted (s : String) : Literal s (quoted s) := ⟨rfl, quotedText_quoted s⟩

theorem literal_shield (s : String) : Literal s (shield (quoted s)) := by
  have hshield : shield (quoted s) = '"' :: shield (s.toList.flatMap escapeChar ++ ['"']) :=
    shield_cons (fun _ h _ => absurd h (by decide)) (by decide) (by decide)
  refine ⟨by rw [hshield]; rfl, fun rest => ?_⟩
  have hbody := textBody_shield s.toList [] rest
  rw [hshield, List.cons_append, quotedText, hbody]
  simp

theorem alike_shield (h : Lexed cs) : Alike cs (shield cs) := by
  induction h with
  | nil => exact .nil
  | @char c cs bare _ ih =>
    obtain ⟨hlow, hhigh, hquote, hopen⟩ := bare
    have hshield : shield ([c] ++ cs) = [c] ++ shield cs :=
      shield_printable (List.forall_mem_singleton.mpr ⟨hlow, hhigh, hopen⟩) cs
    rw [List.singleton_append, List.singleton_append] at hshield
    rw [hshield]
    exact .char hquote ih
  | @text s cs _ ih =>
    rw [shield_quoted_append]
    exact .literal (literal_quoted s) (literal_shield s) ih

theorem head?_shield (h : (shield cs).head? = some '/') : ∃ es, cs = '/' :: es := by
  cases cs using shield.fun_cases with
  | case1 => cases h
  | case2 cs => exact absurd (Option.some.inj h) (by decide)
  | case3 cs =>
    rw [shield_line] at h
    exact absurd (Option.some.inj h) (by decide)
  | case4 cs =>
    rw [shield_paragraph] at h
    exact absurd (Option.some.inj h) (by decide)
  | case5 c cs hfirst hline hparagraph =>
    rw [shield_cons hfirst hline hparagraph] at h
    exact ⟨cs, by rw [Option.some.inj h]⟩

theorem not_infix_shield (cs : List Char) : ¬ "</".toList <:+: shield cs := by
  have hopen : "</".toList = ['<', '/'] := rfl
  rw [hopen]
  induction cs using shield.induct with
  | case1 => simp [shield]
  | case2 cs ih =>
    rw [shield]
    simp [List.infix_cons_iff, ih]
  | case3 cs hfirst ih =>
    rw [shield_line]
    simp [List.infix_cons_iff, ih]
  | case4 cs hfirst hline ih =>
    rw [shield_paragraph]
    simp [List.infix_cons_iff, ih]
  | case5 c cs hfirst hline hparagraph ih =>
    rw [shield_cons hfirst hline hparagraph, List.infix_cons_iff, not_or]
    refine ⟨fun hprefix => ?_, ih⟩
    obtain ⟨hc, hnext⟩ := List.cons_prefix_cons.mp hprefix
    obtain ⟨tail, htail⟩ := hnext
    -- the `/` was there before, and shielding would have parted it from the `<`
    obtain ⟨es, hes⟩ := head?_shield (congrArg List.head? htail.symm)
    exact hfirst es hc.symm hes

theorem mem_shield (h : c ∈ shield cs) :
    (c ∈ cs ∧ c ≠ '\u2028' ∧ c ≠ '\u2029') ∨ c ∈ "\\/u2089".toList := by
  induction cs using shield.induct with
  | case1 => cases h
  | case2 cs ih =>
    rw [shield] at h
    rcases List.mem_cons.mp h with rfl | h
    · exact .inl (by simp)
    rcases List.mem_cons.mp h with rfl | h
    · exact .inr (by decide)
    rcases List.mem_cons.mp h with rfl | h
    · exact .inr (by decide)
    · exact (ih h).imp_left fun ⟨hmem, hne⟩ => ⟨by simp [hmem], hne⟩
  | case3 cs hfirst ih =>
    rw [shield_line, List.mem_append] at h
    rcases h with h | h
    · exact .inr ((by decide : "\\u2028".toList ⊆ "\\/u2089".toList) h)
    · exact (ih h).imp_left fun ⟨hmem, hne⟩ => ⟨List.mem_cons_of_mem _ hmem, hne⟩
  | case4 cs hfirst hline ih =>
    rw [shield_paragraph, List.mem_append] at h
    rcases h with h | h
    · exact .inr ((by decide : "\\u2029".toList ⊆ "\\/u2089".toList) h)
    · exact (ih h).imp_left fun ⟨hmem, hne⟩ => ⟨List.mem_cons_of_mem _ hmem, hne⟩
  | case5 c' cs hfirst hline hparagraph ih =>
    rw [shield_cons hfirst hline hparagraph] at h
    rcases List.mem_cons.mp h with rfl | h
    · exact .inl ⟨List.mem_cons_self, hline, hparagraph⟩
    · exact (ih h).imp_left fun ⟨hmem, hne⟩ => ⟨List.mem_cons_of_mem _ hmem, hne⟩

theorem shield_eq_replaceAll (cs : List Char) :
    shield cs = replaceAll ['\u2029'] "\\u2029".toList (replaceAll ['\u2028'] "\\u2028".toList
      (replaceAll ['<', '/'] "<\\/".toList cs)) := by
  rw [replaceAll_singleton, replaceAll_singleton]
  induction cs using shield.induct with
  | case1 => rfl
  | case2 cs ih =>
    rw [shield, replaceAll_pair, List.flatMap_append, List.flatMap_append, ih]
    rfl
  | case3 cs hfirst ih =>
    have hnot : ¬ ['<', '/'] <+: '\u2028' :: cs := fun h =>
      absurd (List.cons_prefix_cons.mp h).1 (by decide)
    rw [shield_line, replaceAll_pair_of_not_prefix hnot, List.flatMap_cons, List.flatMap_append, ih]
    rfl
  | case4 cs hfirst hline ih =>
    have hnot : ¬ ['<', '/'] <+: '\u2029' :: cs := fun h =>
      absurd (List.cons_prefix_cons.mp h).1 (by decide)
    rw [shield_paragraph, replaceAll_pair_of_not_prefix hnot, List.flatMap_cons,
      List.flatMap_append, ih]
    rfl
  | case5 c cs hfirst hline hparagraph ih =>
    have hnot : ¬ ['<', '/'] <+: c :: cs := by
      intro h
      obtain ⟨hc, hnext⟩ := List.cons_prefix_cons.mp h
      obtain ⟨es, rfl⟩ := hnext
      exact hfirst es hc.symm rfl
    rw [shield_cons hfirst hline hparagraph, replaceAll_pair_of_not_prefix hnot, List.flatMap_cons,
      if_neg hline, List.singleton_append, List.flatMap_cons, if_neg hparagraph,
      List.singleton_append, ih]

theorem mem_embed {s : Spec} (h : c ∈ (embed s).toList) :
    c ≠ '\u2028' ∧ c ≠ '\u2029' ∧ ' ' ≤ c := by
  rw [embed, String.toList_ofList] at h
  rcases mem_shield h with ⟨hmem, hline, hparagraph⟩ | hmem
  · exact ⟨hline, hparagraph, (Value.lexed_print _).space_le c hmem⟩
  · have hall : "\\/u2089".toList.all
        (fun c => decide (c ≠ '\u2028' ∧ c ≠ '\u2029' ∧ ' ' ≤ c)) = true := by decide
    exact of_decide_eq_true (List.all_eq_true.mp hall c hmem)

theorem newline_not_mem_dataLine (s : Spec) : '\n' ∉ (dataLine s).toList := by
  have hdata : dataLine s = "window.__PROTOFORGE_SPEC__ = " ++ embed s ++ ";" := rfl
  intro h
  rw [hdata, String.toList_append, String.toList_append, List.mem_append, List.mem_append] at h
  rcases h with (h | h) | h
  · exact absurd h (by decide)
  · exact absurd (mem_embed h).2.2 (by decide)
  · exact absurd h (by decide)

theorem splitAt_render (s : Spec) :
    splitAt '\n' (render s).toList =
      (dataLine s).toList :: splitAt '\n' PageScript.text.toList := by
  have hrender : (render s).toList = (dataLine s).toList ++ '\n' :: PageScript.text.toList := by
    rw [render, String.toList_append, String.toList_append, List.append_assoc]
    rfl
  rw [hrender, splitAt_append, splitAt_of_not_mem (newline_not_mem_dataLine s),
    List.singleton_append]

/-- The data of a script is written by three replacements in JSON text, stays on the first line,
cannot close the script element, and holds the value that the JSON text holds. -/
theorem embed_faithful (s : Spec) :
    (embed s).toList = replaceAll ['\u2029'] "\\u2029".toList
      (replaceAll ['\u2028'] "\\u2028".toList
        (replaceAll "</".toList "<\\/".toList (Spec.record.ordered s).compact.toList)) ∧
    ¬ "</".toList <:+: (embed s).toList ∧
    (∀ c ∈ (embed s).toList, c ≠ '\u2028' ∧ c ≠ '\u2029' ∧ c ≠ '\n' ∧ c ≠ '\r') ∧
    (splitAt '\n' (render s).toList).head? =
      some ("window.__PROTOFORGE_SPEC__ = " ++ embed s ++ ";").toList ∧
    ∀ v, Value.parse (embed s) = .ok v ↔ Value.parse (Spec.record.ordered s).compact = .ok v := by
  have hembed : (embed s).toList = shield (Spec.record.ordered s).print := by
    rw [embed, String.toList_ofList]
  have hcompact : (Spec.record.ordered s).compact.toList = (Spec.record.ordered s).print := by
    rw [Value.compact, String.toList_ofList]
  refine ⟨?_, ?_, ?_, ?_, ?_⟩
  · rw [hembed, hcompact]
    exact shield_eq_replaceAll _
  · rw [hembed]
    exact not_infix_shield _
  · intro c hc
    obtain ⟨hline, hparagraph, hspace⟩ := mem_embed hc
    refine ⟨hline, hparagraph, ?_, ?_⟩
    · rintro rfl
      exact absurd hspace (by decide)
    · rintro rfl
      exact absurd hspace (by decide)
  · rw [splitAt_render, List.head?_cons]
    rfl
  · have hlike : Alike (Spec.record.ordered s).compact.toList (embed s).toList := by
      rw [hembed, hcompact]
      exact alike_shield (Value.lexed_print _)
    intro v
    exact (Value.parse_alike hlike v).symm

end Mockup.Script
