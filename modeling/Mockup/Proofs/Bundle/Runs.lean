import Mathlib.Data.List.SplitBy
import Mockup.Proofs.Bundle.Slug
import Mockup.Proofs.Text.Trim

/-! The slug of a title, read off the runs of characters in the title. Each run that is not allowed
in slugs gives one dash, and the dashes around the text are taken away. -/

namespace Mockup.Slug

section Runs

variable {cs run : List Char} {rs : List (List Char)}

def runs (cs : List Char) : List (List Char) := cs.splitBy fun c d => isAllowed c == isAllowed d

def dashedRun (run : List Char) : List Char := if run.all isAllowed then run else ['-']

def dashed (cs : List Char) : List Char := (runs cs).flatMap dashedRun

theorem isAllowed_of_mem_runs (hrun : run ∈ runs cs) :
    ∀ c ∈ run, isAllowed c = run.all isAllowed := by
  have hchain : run.IsChain fun c d => isAllowed c = isAllowed d :=
    (List.isChain_of_mem_splitBy hrun).imp fun c d h => beq_iff_eq.mp h
  cases run with
  | nil => exact fun c hc => absurd hc List.not_mem_nil
  | cons c ds =>
    have htrans : IsTrans Char fun c d => isAllowed c = isAllowed d := ⟨fun _ _ _ => Eq.trans⟩
    have hfirst : ∀ d ∈ ds, isAllowed c = isAllowed d := fun d hd =>
      List.rel_of_pairwise_cons (List.isChain_iff_pairwise.mp hchain) hd
    have hall : (c :: ds).all isAllowed = isAllowed c := by
      rw [List.all_cons]
      cases hc : isAllowed c with
      | false => rfl
      | true => exact List.all_eq_true.mpr fun d hd => (hfirst d hd).symm.trans hc
    intro d hd
    rw [hall]
    rcases List.mem_cons.mp hd with rfl | hd
    · rfl
    · exact (hfirst d hd).symm

theorem runs_alternate (cs : List Char) :
    (runs cs).IsChain fun r r' => r.all isAllowed = false → r'.all isAllowed = true := by
  have hchain := List.isChain_getLast_head_splitBy (fun c d => isAllowed c == isAllowed d) cs
  refine hchain.imp_of_mem_imp fun r r' hr hr' hborder hall => ?_
  obtain ⟨hne, hne', hdiffer⟩ := hborder
  rw [isAllowed_of_mem_runs hr _ (List.getLast_mem hne),
    isAllowed_of_mem_runs hr' _ (List.head_mem hne'), hall] at hdiffer
  simpa using hdiffer

theorem collapse_allowed (hne : run ≠ []) (hrun : ∀ c ∈ run, isAllowed c = true)
    (pending : Bool) (cs : List Char) :
    collapse pending (run ++ cs) = (if pending then ['-'] else []) ++ run ++ collapse false cs := by
  have hlater (ds : List Char) (hds : ∀ c ∈ ds, isAllowed c = true) :
      collapse false (ds ++ cs) = ds ++ collapse false cs := by
    induction ds with
    | nil => rfl
    | cons d ds ih =>
      obtain ⟨hd, hds⟩ := List.forall_mem_cons.mp hds
      rw [List.cons_append, collapse, if_pos hd, ih hds]
      rfl
  cases run with
  | nil => exact absurd rfl hne
  | cons c ds =>
    obtain ⟨hc, hds⟩ := List.forall_mem_cons.mp hrun
    rw [List.cons_append, collapse, if_pos hc, hlater ds hds]
    cases pending <;> rfl

theorem collapse_other (hne : run ≠ []) (hrun : ∀ c ∈ run, isAllowed c = false)
    (pending : Bool) (cs : List Char) :
    collapse pending (run ++ cs) = collapse true cs := by
  induction run generalizing pending with
  | nil => exact absurd rfl hne
  | cons c ds ih =>
    obtain ⟨hc, hds⟩ := List.forall_mem_cons.mp hrun
    have hskip : collapse pending (c :: ds ++ cs) = collapse true (ds ++ cs) := by
      rw [List.cons_append, collapse, hc]
      rfl
    rw [hskip]
    cases ds with
    | nil => rfl
    | cons d ds => exact ih (List.cons_ne_nil _ _) hds true

theorem dashes_flatMap (pending : Bool) (hne : [] ∉ rs)
    (huniform : ∀ r ∈ rs, ∀ c ∈ r, isAllowed c = r.all isAllowed)
    (halternate : rs.IsChain fun r r' => r.all isAllowed = false → r'.all isAllowed = true)
    (hpending : pending = true → ∀ r ∈ rs.head?, r.all isAllowed = true) :
    ∃ tail, (∀ c ∈ tail, c = '-') ∧
      (if pending then ['-'] else []) ++ rs.flatMap dashedRun =
        collapse pending rs.flatten ++ tail := by
  induction rs generalizing pending with
  | nil =>
    refine ⟨if pending then ['-'] else [], ?_, List.append_nil _⟩
    cases pending <;> simp
  | cons r rs ih =>
    obtain ⟨hr, hrs⟩ := List.forall_mem_cons.mp huniform
    have hrne : r ≠ [] := fun heq => hne (heq ▸ List.mem_cons_self)
    have hrsne : [] ∉ rs := fun hmem => hne (List.mem_cons_of_mem _ hmem)
    obtain ⟨hnext, hrest⟩ := List.isChain_cons.mp halternate
    rw [List.flatten_cons, List.flatMap_cons, dashedRun]
    cases hall : r.all isAllowed with
    | true =>
      rw [hall] at hr
      obtain ⟨tail, htail, heq⟩ := ih false hrsne hrs hrest nofun
      refine ⟨tail, htail, ?_⟩
      rw [collapse_allowed hrne hr, List.append_assoc, ← heq]
      simp
    | false =>
      rw [hall] at hr
      obtain rfl : pending = false := by
        by_contra htrue
        have hfirst := hpending (eq_true_of_ne_false htrue) r rfl
        rw [hall] at hfirst
        cases hfirst
      have hfollows : ∀ r' ∈ rs.head?, r'.all isAllowed = true := fun r' hr' =>
        hnext r' hr' hall
      obtain ⟨tail, htail, heq⟩ := ih true hrsne hrs hrest fun _ => hfollows
      refine ⟨tail, htail, ?_⟩
      rw [collapse_other hrne hr, ← heq]
      rfl

/-- One pass with a dash kept back gives the same as the two steps. -/
theorem stripDashes_collapse (cs : List Char) :
    stripDashes (collapse false cs) = stripDashes (dashed cs) := by
  have hne : [] ∉ runs cs := List.nil_notMem_splitBy _ cs
  have hflatten : (runs cs).flatten = cs := List.flatten_splitBy _ cs
  obtain ⟨tail, htail, hdashed⟩ := dashes_flatMap false hne
    (fun r hr => isAllowed_of_mem_runs hr) (runs_alternate cs) nofun
  rw [hflatten] at hdashed
  have hdashed : dashed cs = collapse false cs ++ tail := hdashed
  rw [hdashed, stripDashes, stripDashes, Text.strip_append fun c hc => decide_eq_true (htail c hc)]

end Runs

section Letters

variable {cs : List Char} {title slug spare : String}

theorem ne_dash_eq_isLetterOrDigit {c : Char} (h : isAllowed c = true) :
    decide (c ≠ '-') = isLetterOrDigit c := by
  rw [isAllowed, Bool.or_eq_true, decide_eq_true_eq] at h
  rcases h with hletter | rfl
  · rw [hletter, decide_eq_true_eq]
    rintro rfl
    cases hletter
  · rfl

theorem filter_collapse (pending : Bool) (cs : List Char) :
    (collapse pending cs).filter isLetterOrDigit = cs.filter isLetterOrDigit := by
  induction cs generalizing pending with
  | nil => rfl
  | cons c cs ih =>
    have hdash : isLetterOrDigit '-' = false := rfl
    rw [collapse]
    split_ifs with hc hpending
    · rw [List.filter_cons, hdash, List.filter_cons, List.filter_cons, ih]
      rfl
    · rw [List.filter_cons, List.filter_cons, ih]
    · have hother : ¬ isLetterOrDigit c = true := fun hletter =>
        hc (by rw [isAllowed, hletter, Bool.true_or])
      rw [ih, List.filter_cons_of_neg hother]

theorem filter_stripDashes (cs : List Char) :
    (stripDashes cs).filter isLetterOrDigit = cs.filter isLetterOrDigit := by
  have hdashes {ds : List Char} (hds : ∀ c ∈ ds, decide (c = '-') = true) :
      ds.filter isLetterOrDigit = [] := by
    refine List.filter_eq_nil_iff.mpr fun c hc => ?_
    obtain rfl := of_decide_eq_true (hds c hc)
    decide
  obtain ⟨front, back, hcs, hfront, hback⟩ := Text.exists_strip_eq (· = '-') cs
  conv_rhs => rw [hcs]
  rw [List.filter_append, List.filter_append, hdashes hfront, hdashes hback, List.append_nil,
    List.nil_append]
  rfl

theorem isAllowed_of_mem_kept {c : Char} (h : c ∈ stripDashes (collapse false cs)) :
    isAllowed c = true := isAllowed_of_mem_collapse (mem_of_mem_stripDashes h)

theorem stripDashes_collapse_eq_nil_iff :
    stripDashes (collapse false cs) = [] ↔ ∀ c ∈ cs, isLetterOrDigit c = false := by
  have hfilter : (stripDashes (collapse false cs)).filter isLetterOrDigit =
      cs.filter isLetterOrDigit := by rw [filter_stripDashes, filter_collapse]
  constructor
  · intro hnil c hc
    rw [hnil, List.filter_nil, eq_comm, List.filter_eq_nil_iff] at hfilter
    exact Bool.eq_false_iff.mpr (hfilter c hc)
  · intro hnone
    have hother : cs.filter isLetterOrDigit = [] :=
      List.filter_eq_nil_iff.mpr fun c hc => Bool.eq_false_iff.mp (hnone c hc)
    rw [hother, List.filter_eq_nil_iff] at hfilter
    -- what is left are dashes only, and none of them stands at an end
    have hdash : ∀ c ∈ stripDashes (collapse false cs), decide (c = '-') = true := by
      intro c hc
      have hne := ne_dash_eq_isLetterOrDigit (isAllowed_of_mem_kept hc)
      rw [Bool.eq_false_iff.mpr (hfilter c hc), decide_eq_false_iff_not, not_not] at hne
      exact decide_eq_true hne
    calc stripDashes (collapse false cs)
        = stripDashes (stripDashes (collapse false cs)) := (Text.strip_strip _ _).symm
      _ = [] := Text.strip_eq_nil_iff.mpr hdash

theorem ofTitle?_of_letter (h : ∃ c ∈ (Text.lowerCase title).toList, isLetterOrDigit c = true) :
    ofTitle? title = some (String.ofList (stripDashes (dashed (Text.lowerCase title).toList))) := by
  rw [← stripDashes_collapse, ofTitle?]
  split
  · next hnil =>
    obtain ⟨c, hc, hletter⟩ := h
    rw [stripDashes_collapse_eq_nil_iff.mp hnil c hc] at hletter
    cases hletter
  · next c cs hkept => rw [hkept]

theorem ofTitle?_eq_none (h : ∀ c ∈ (Text.lowerCase title).toList, isLetterOrDigit c = false) :
    ofTitle? title = none := by
  rw [ofTitle?, stripDashes_collapse_eq_nil_iff.mpr h]

end Letters

section Again

variable {cs : List Char} {slug : String}

theorem char_of_isAllowed {c : Char} (h : isAllowed c = true) :
    c ≠ '\u03a3' ∧ Text.LowerCase.char c = [c] := by
  have hcode : c.toNat < 0x80 ∧ ¬ ('A' ≤ c ∧ c ≤ 'Z') := by
    simp only [isAllowed, isLetterOrDigit, Bool.or_eq_true, Bool.and_eq_true, decide_eq_true_eq]
      at h
    rcases h with (⟨ha, hz⟩ | ⟨h0, h9⟩) | rfl
    · have hlow : 97 ≤ c.toNat := ha
      have hhigh : c.toNat ≤ 122 := hz
      refine ⟨by omega, fun ⟨_, hZ⟩ => ?_⟩
      have hcapital : c.toNat ≤ 90 := hZ
      omega
    · have hhigh : c.toNat ≤ 57 := h9
      refine ⟨by omega, fun ⟨hA, _⟩ => ?_⟩
      have hcapital : 65 ≤ c.toNat := hA
      omega
    · decide
  refine ⟨?_, ?_⟩
  · rintro rfl
    exact absurd hcode.1 (by decide)
  · rw [Text.LowerCase.char, if_pos hcode.1, if_neg]
    rw [Bool.and_eq_true, decide_eq_true_eq, decide_eq_true_eq]
    exact hcode.2

theorem lowerCase_of_isAllowed (h : ∀ c ∈ slug.toList, isAllowed c = true) :
    Text.lowerCase slug = slug := by
  have hscan (before cs : List Char) (hcs : ∀ c ∈ cs, isAllowed c = true) :
      Text.LowerCase.scan before cs = cs := by
    induction cs generalizing before with
    | nil => rfl
    | cons c cs ih =>
      obtain ⟨hc, hcs⟩ := List.forall_mem_cons.mp hcs
      obtain ⟨hsigma, hchar⟩ := char_of_isAllowed hc
      rw [Text.LowerCase.scan, if_neg hsigma, hchar, ih _ hcs]
      rfl
  rw [Text.lowerCase, hscan [] _ h, String.ofList_toList]

theorem collapse_of_isAllowed (h : ∀ c ∈ cs, isAllowed c = true) : collapse false cs = cs := by
  cases cs with
  | nil => rfl
  | cons c cs =>
    have hcollapse := collapse_allowed (List.cons_ne_nil c cs) h false []
    rw [List.append_nil] at hcollapse
    rw [hcollapse]
    exact List.append_nil _

theorem ofTitle?_slug (h : IsSlug slug) (hends : stripDashes slug.toList = slug.toList) :
    ofTitle? slug = some slug := by
  rw [ofTitle?, lowerCase_of_isAllowed h.2, collapse_of_isAllowed h.2, hends]
  split
  · next hnil => exact absurd (String.toList_injective (by rw [hnil]; rfl)) h.1
  · next c cs hcs => rw [← hcs, String.ofList_toList]

end Again

structure IsToken (s : String) : Prop where
  length : s.length = 8
  digits : ∀ c ∈ s.toList, c ∈ "0123456789abcdef".toList

namespace IsToken

variable {spare : String}

theorem isLetterOrDigit (h : IsToken spare) : ∀ c ∈ spare.toList, isLetterOrDigit c = true := by
  have hdigits : "0123456789abcdef".toList.all Slug.isLetterOrDigit = true := by decide
  exact fun c hc => List.all_eq_true.mp hdigits c (h.digits c hc)

theorem isSlug (h : IsToken spare) : IsSlug spare := by
  refine ⟨?_, fun c hc => ?_⟩
  · rintro rfl
    exact absurd h.length (by decide)
  · rw [isAllowed, h.isLetterOrDigit c hc, Bool.true_or]

theorem stripDashes_eq (h : IsToken spare) : stripDashes spare.toList = spare.toList := by
  have hdash : ∀ c ∈ spare.toList, decide (c = '-') = false := by
    intro c hc
    rw [decide_eq_false_iff_not]
    rintro rfl
    exact Bool.false_ne_true (h.isLetterOrDigit '-' hc)
  refine Text.strip_eq_self_iff.mpr ⟨fun c hc => ?_, fun c hc => ?_⟩
  · exact hdash c (List.mem_of_mem_head? hc)
  · exact hdash c (List.mem_of_mem_getLast? hc)

end IsToken

/-- The slug of a title with a letter or digit in it is the title in lower case, with one dash in
place of each run that is not allowed and without dashes around it. Any other title has the token
that is drawn for it. -/
theorem ofTitle_tells {spare : String} (h : IsToken spare) (title : String) :
    let slug := ofTitle spare title
    let letters := (Text.lowerCase title).toList
    IsSlug slug ∧ (∀ spare', ofTitle spare' slug = slug) ∧
    ((∃ c ∈ letters, isLetterOrDigit c = true) →
      slug.toList = stripDashes (dashed letters) ∧
      slug.toList.head? ≠ some '-' ∧ slug.toList.getLast? ≠ some '-' ∧
      slug.toList.filter (· ≠ '-') = letters.filter isLetterOrDigit) ∧
    ((∀ c ∈ letters, isLetterOrDigit c = false) → slug = spare) := by
  intro slug letters
  have hslug : IsSlug slug := isSlug_ofTitle h.isSlug title
  have hkept (hletter : ∃ c ∈ letters, isLetterOrDigit c = true) :
      slug.toList = stripDashes (dashed letters) := by
    have hofTitle : slug = (ofTitle? title).getD spare := rfl
    rw [hofTitle, ofTitle?_of_letter hletter, Option.getD_some, String.toList_ofList]
  have hspare (hnone : ∀ c ∈ letters, isLetterOrDigit c = false) : slug = spare := by
    have hofTitle : slug = (ofTitle? title).getD spare := rfl
    rw [hofTitle, ofTitle?_eq_none hnone]
    rfl
  have hends : stripDashes slug.toList = slug.toList := by
    by_cases hletter : ∃ c ∈ letters, isLetterOrDigit c = true
    · rw [hkept hletter]
      exact Text.strip_strip _ _
    · have hnone : ∀ c ∈ letters, isLetterOrDigit c = false := fun c hc =>
        Bool.eq_false_iff.mpr fun htrue => hletter ⟨c, hc, htrue⟩
      rw [hspare hnone]
      exact h.stripDashes_eq
  refine ⟨hslug, fun spare' => ?_, fun hletter => ⟨hkept hletter, ?_, ?_, ?_⟩, hspare⟩
  · have hofTitle : ofTitle spare' slug = (ofTitle? slug).getD spare' := rfl
    rw [hofTitle, ofTitle?_slug hslug hends, Option.getD_some]
  · intro hhead
    exact absurd ((Text.strip_eq_self_iff.mp hends).1 '-' hhead) (by decide)
  · intro hlast
    exact absurd ((Text.strip_eq_self_iff.mp hends).2 '-' hlast) (by decide)
  · calc slug.toList.filter (· ≠ '-')
        = slug.toList.filter isLetterOrDigit :=
          List.filter_congr fun c hc => ne_dash_eq_isLetterOrDigit (hslug.2 c hc)
      _ = letters.filter isLetterOrDigit := by
          rw [hkept hletter, ← stripDashes_collapse, filter_stripDashes, filter_collapse]

theorem ofTitle_tells_cafe :
    IsToken "0a1b2c3d" ∧ (ofTitle "0a1b2c3d" "--Café  İ2.0!").toList = "caf-i-2-0".toList ∧
      ofTitle "0a1b2c3d" "¡…!" = "0a1b2c3d" := by
  have hdigits : "0a1b2c3d".toList.all (fun c => "0123456789abcdef".toList.contains c) = true := by
    decide
  have htoken : IsToken "0a1b2c3d" :=
    ⟨by decide, fun c hc => List.contains_iff_mem.mp (List.all_eq_true.mp hdigits c hc)⟩
  have hletter : ∃ c ∈ (Text.lowerCase "--Café  İ2.0!").toList, isLetterOrDigit c = true :=
    List.any_eq_true.mp (by decide)
  have hmarked : (Text.lowerCase "¡…!").toList.any isLetterOrDigit = false := by decide
  have hnone : ∀ c ∈ (Text.lowerCase "¡…!").toList, isLetterOrDigit c = false := fun c hc =>
    Bool.eq_false_iff.mpr fun hc' => List.any_eq_false.mp hmarked c hc hc'
  obtain ⟨-, -, hcafe, -⟩ := ofTitle_tells htoken "--Café  İ2.0!"
  obtain ⟨-, -, -, hmarks⟩ := ofTitle_tells htoken "¡…!"
  refine ⟨htoken, (hcafe hletter).1.trans ?_, hmarks hnone⟩
  decide

end Mockup.Slug
