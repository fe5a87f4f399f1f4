import Mathlib.Data.List.TakeDrop
import Mockup.Proofs.Json.Alike

/-! Texts that spell their strings differently hold the same value. A number keeps nothing of what
follows it, so the text that it leaves is only handed on. -/

namespace Mockup.Json

namespace Reader

variable {α β : Type} {c : Char} {cs ds : List Char}

theorem spanDigits_eq (cs : List Char) :
    spanDigits cs = (cs.takeWhile Text.isDigit, cs.dropWhile Text.isDigit) :=
  List.span_eq_takeWhile_dropWhile _ _

theorem wholeDigits_cons (hzero : c ≠ '0') (cs : List Char) :
    wholeDigits (c :: cs) =
      if Text.isDigit c then .ok (spanDigits (c :: cs)) else .error ⟨.badNumber, c :: cs, 1⟩ := by
  rw [wholeDigits]
  exact hzero

theorem fractionDigits_cons (hpoint : c ≠ '.') (cs : List Char) :
    fractionDigits (c :: cs) = .ok (none, c :: cs) := by
  rw [fractionDigits]
  exact fun _ h => hpoint (List.cons.inj h).1

theorem exponentPart_unsigned {d : Char} (hletter : (c = 'e' || c = 'E') = true) (hplus : d ≠ '+')
    (hminus : d ≠ '-') (cs : List Char) :
    exponentPart (c :: d :: cs) = exponentDigits false (d :: cs) := by
  refine (if_pos hletter).trans ?_
  split
  · next h => exact absurd (List.cons.inj h).1 hplus
  · next h => exact absurd (List.cons.inj h).1 hminus
  · rfl

theorem number_cons (hminus : c ≠ '-') (cs : List Char) :
    number (c :: cs) = unsignedNumber false (c :: cs) := by
  rw [number]
  exact fun _ h => hminus (List.cons.inj h).1

def Handed (r : Reader α) : Prop :=
  (∃ x, ∀ rest, r rest = .ok (x, rest)) ∨ ∀ rest, ∃ e, r rest = .error e

theorem Handed.ite {p : Prop} [Decidable p] {r r' : Reader α} (h : Handed r) (h' : Handed r') :
    Handed fun cs => if p then r cs else r' cs := by
  split
  · exact h
  · exact h'

theorem Handed.of_eq {r r' : Reader α} (h : Handed r) (heq : ∀ cs, r' cs = r cs) : Handed r' :=
  (funext heq : r' = r) ▸ h

theorem handed_realNumber (negative : Bool) (digits : Nat) (exponent : Int) :
    Handed (realNumber negative digits exponent) := by
  cases hreal : Number.Double.ofLiteral? negative digits exponent with
  | some x => exact .inl ⟨.real x, fun rest => by rw [realNumber, hreal, Option.elim_some]⟩
  | none => exact .inr fun rest => ⟨_, by rw [realNumber, hreal, Option.elim_none]⟩

theorem handed_wholeNumber (negative : Bool) (n : Nat) : Handed (wholeNumber negative n) := by
  cases negative with
  | true =>
    by_cases hzero : n = 0
    · subst hzero
      exact .inl ⟨.real (signedZero true), fun _ => rfl⟩
    cases hint : Integer.ofInt? (-(n : Int)) with
    | some k =>
      refine .inl ⟨.int k, fun rest => ?_⟩
      rw [wholeNumber, if_pos rfl, if_neg hzero, hint]
    | none =>
      refine (handed_realNumber true n 0).of_eq fun rest => ?_
      rw [wholeNumber, if_pos rfl, if_neg hzero, hint]
  | false =>
    cases hint : Integer.ofInt? (n : Int) with
    | some k =>
      refine .inl ⟨.int k, fun rest => ?_⟩
      rw [wholeNumber, if_neg Bool.false_ne_true, hint]
    | none =>
      refine (handed_realNumber false n 0).of_eq fun rest => ?_
      rw [wholeNumber, if_neg Bool.false_ne_true, hint]

theorem exists_unsignedNumber_eq (negative : Bool) :
    ∃ last : List Char → Option (List Char) → Option Exponent → Reader Number,
      (∀ whole fraction exponent, Handed (last whole fraction exponent)) ∧
        unsignedNumber negative = wholeDigits.andThen fun whole =>
          fractionDigits.andThen fun fraction => exponentPart.andThen fun exponent =>
            last whole fraction exponent := by
  refine ⟨_, fun whole fraction exponent => ?_, rfl⟩
  cases exponent with
  | none => exact (handed_wholeNumber negative _).ite (handed_realNumber negative _ _)
  | some e =>
    dsimp only
    cases exponentValue 0 e.digits with
    | ok k => exact handed_realNumber negative _ _
    | error unread =>
      exact Handed.ite (.inr fun rest => ⟨_, rfl⟩)
        (.inl ⟨.real (signedZero negative), fun _ => rfl⟩)

theorem spanDigits_alike (hlike : Alike cs ds) :
    (spanDigits cs).1 = (spanDigits ds).1 ∧ Alike (spanDigits cs).2 (spanDigits ds).2 ∧
      (spanDigits ds).2.length ≤ ds.length := by
  obtain ⟨hdrop, htake⟩ := hlike.dropWhile (p := Text.isDigit) (by decide)
  rw [spanDigits_eq, spanDigits_eq]
  exact ⟨htake, hdrop, (List.dropWhile_suffix _).length_le⟩

theorem respects_wholeDigits : Respects wholeDigits := by
  intro cs ds hlike
  rcases hlike.heads with ⟨rfl, rfl⟩ | ⟨c, cs', ds', rfl, rfl⟩
  · exact follows_error rfl
  by_cases hzero : c = '0'
  · subst hzero
    have hrest : Alike cs' ds' := hlike.tail (by decide)
    rcases hrest.heads with ⟨rfl, rfl⟩ | ⟨d, es, fs, rfl, rfl⟩
    · exact follows_ok rfl rfl hrest (Nat.le_succ _)
    · by_cases hdigit : Text.isDigit d
      · exact follows_error (if_pos hdigit)
      · exact follows_ok (if_neg hdigit) (if_neg hdigit) hrest (Nat.le_succ _)
  · by_cases hdigit : Text.isDigit c
    · obtain ⟨hdigits, hrest, hlength⟩ := spanDigits_alike hlike
      refine follows_ok (x := (spanDigits (c :: cs')).1) ?_ ?_ hrest hlength
      · rw [wholeDigits_cons hzero, if_pos hdigit]
      · rw [wholeDigits_cons hzero, if_pos hdigit, hdigits]
    · exact follows_error ((wholeDigits_cons hzero cs').trans (if_neg hdigit))

theorem respects_digitsAfter {r : Reader α} {f : List Char → α}
    (hread : ∀ es, r es = match spanDigits es with
      | ([], []) => .error ⟨.endOfValue, [], 0⟩
      | ([], rest) => .error ⟨.badNumber, rest, 1⟩
      | (digits, rest) => .ok (f digits, rest)) : Respects r := by
  intro cs ds hlike
  obtain ⟨hdigits, hrest, hlength⟩ := spanDigits_alike hlike
  have hcs := hread cs
  have hds := hread ds
  generalize spanDigits cs = p at hdigits hrest hcs
  generalize spanDigits ds = q at hdigits hrest hlength hds
  obtain ⟨digits, rest⟩ := p
  obtain ⟨digits', rest'⟩ := q
  dsimp only at hdigits hrest hlength
  subst hdigits
  cases digits with
  | nil =>
    cases rest with
    | nil => exact follows_error hcs
    | cons c rest => exact follows_error hcs
  | cons d digits => exact follows_ok hcs hds hrest hlength

theorem respects_exponentDigits (negative : Bool) : Respects (exponentDigits negative) :=
  respects_digitsAfter (f := fun digits => some ⟨negative, digits⟩) fun _ => rfl

theorem respects_exponentPart : Respects exponentPart := by
  intro cs ds hlike
  rcases hlike.heads with ⟨rfl, rfl⟩ | ⟨c, cs', ds', rfl, rfl⟩
  · exact follows_ok rfl rfl hlike (Nat.le_refl _)
  by_cases hletter : (c = 'e' || c = 'E') = true
  · have hrest : Alike cs' ds' := hlike.tail (by rintro rfl; exact absurd hletter (by decide))
    rcases hrest.heads with ⟨rfl, rfl⟩ | ⟨d, es, fs, rfl, rfl⟩
    · exact (respects_exponentDigits false [] [] hrest).tail (if_pos hletter) (if_pos hletter)
    -- the sign is read together with the letter, so two characters are passed at once
    by_cases hplus : d = '+'
    · subst hplus
      have htail := (respects_exponentDigits false es fs (hrest.tail (by decide))).tail
        (c := '+') (q := fun es => exponentPart (c :: es)) (p := fun es => exponentPart (c :: es))
        (if_pos hletter) (if_pos hletter)
      exact htail.tail rfl rfl
    by_cases hminus : d = '-'
    · subst hminus
      have htail := (respects_exponentDigits true es fs (hrest.tail (by decide))).tail
        (c := '-') (q := fun es => exponentPart (c :: es)) (p := fun es => exponentPart (c :: es))
        (if_pos hletter) (if_pos hletter)
      exact htail.tail rfl rfl
    · exact (respects_exponentDigits false _ _ hrest).tail
        (exponentPart_unsigned hletter hplus hminus es)
        (exponentPart_unsigned hletter hplus hminus fs)
  · exact follows_ok (if_neg hletter) (if_neg hletter) hlike (Nat.le_refl _)

theorem respects_fractionDigits : Respects fractionDigits := by
  have hpoint : Respects fun es => fractionDigits ('.' :: es) :=
    respects_digitsAfter (f := some) fun _ => rfl
  intro cs ds hlike
  rcases hlike.heads with ⟨rfl, rfl⟩ | ⟨c, cs', ds', rfl, rfl⟩
  · exact follows_ok rfl rfl hlike (Nat.le_refl _)
  by_cases hc : c = '.'
  · subst hc
    exact (hpoint cs' ds' (hlike.tail (by decide))).tail rfl rfl
  · exact follows_ok (fractionDigits_cons hc cs') (fractionDigits_cons hc ds') hlike (Nat.le_refl _)

theorem Handed.respects {r : Reader α} (h : Handed r) : Respects r := by
  intro cs ds hlike
  rcases h with ⟨x, hx⟩ | herror
  · exact follows_ok (hx cs) (hx ds) hlike (Nat.le_refl _)
  · obtain ⟨e, he⟩ := herror cs
    exact follows_error he

theorem respects_unsignedNumber (negative : Bool) : Respects (unsignedNumber negative) := by
  obtain ⟨last, hlast, heq⟩ := exists_unsignedNumber_eq negative
  rw [heq]
  exact respects_wholeDigits.andThen fun whole => respects_fractionDigits.andThen fun fraction =>
    respects_exponentPart.andThen fun exponent => (hlast whole fraction exponent).respects

theorem respects_number : Respects number := by
  intro cs ds hlike
  rcases hlike.heads with ⟨rfl, rfl⟩ | ⟨c, cs', ds', rfl, rfl⟩
  · exact respects_unsignedNumber false [] [] hlike
  by_cases hminus : c = '-'
  · subst hminus
    exact (respects_unsignedNumber true cs' ds' (hlike.tail (by decide))).tail rfl rfl
  · exact follows_congr (number_cons hminus cs') (number_cons hminus ds')
      (respects_unsignedNumber false _ _ hlike)

theorem scalar_follows {c : Char} (hlike : Alike (c :: cs) (c :: ds)) :
    Follows (fun _ => scalar c cs) (fun _ => scalar c ds) (c :: cs) (c :: ds) := by
  have hword {v : Value} {ls : List Char} (hc : c ≠ '"') (hls : '"' ∉ ls) :
      Follows (fun _ => (letters ls).map (fun _ => v) cs)
        (fun _ => (letters ls).map (fun _ => v) ds) (c :: cs) (c :: ds) :=
    ((respects_letters hls).map cs ds (hlike.tail hc)).tail rfl rfl
  unfold scalar
  by_cases hn : c = 'n'
  · simp only [if_pos hn]
    exact hword (by subst hn; decide) (by decide)
  by_cases ht : c = 't'
  · simp only [if_neg hn, if_pos ht]
    exact hword (by subst ht; decide) (by decide)
  by_cases hf : c = 'f'
  · simp only [if_neg hn, if_neg ht, if_pos hf]
    exact hword (by subst hf; decide) (by decide)
  by_cases hquote : c = '"'
  · simp only [if_neg hn, if_neg ht, if_neg hf, if_pos hquote]
    exact follows_congr rfl rfl (respects_quotedText.map (f := Value.text) _ _ hlike)
  by_cases hnumber : (c = '-' || Text.isDigit c) = true
  · simp only [if_neg hn, if_neg ht, if_neg hf, if_neg hquote, if_pos hnumber]
    exact follows_congr rfl rfl (respects_number.map (f := Value.number) _ _ hlike)
  · simp only [if_neg hn, if_neg ht, if_neg hf, if_neg hquote, if_neg hnumber]
    exact follows_error rfl

theorem respects_freeMember {value : Reader Value} (hvalue : Respects value) (m : Members) :
    Respects (freeMember value m) :=
  respects_quotedText.andThen fun _ => respects_colon.andThen fun _ => hvalue.map

theorem respects_value (levels : Nat) : Respects (value levels) := by
  -- The induction is on the levels that may still be opened; with none left, lists and objects are
  -- faults and all other values are read as before.
  induction levels with
  | zero =>
    intro cs ds hlike
    refine follows_of_heads (value_skipSpace 0) (value_skipSpace 0) hlike (follows_error rfl) ?_
    intro c cs' ds' hspace hhere _
    by_cases hdeep : (c = '[' || c = '\x7b') = true
    · refine follows_error (e := ⟨.tooDeep, c :: cs', 1⟩) ?_
      rw [value, skipSpace_cons hspace]
      exact if_pos hdeep
    · have hread (es : List Char) : value 0 (c :: es) = scalar c es := by
        rw [Bool.or_eq_true, decide_eq_true_eq, decide_eq_true_eq, not_or] at hdeep
        exact value_scalar (skipSpace_cons hspace es) hdeep.1 hdeep.2
      exact follows_congr (hread cs') (hread ds') (scalar_follows hhere)
  | succ levels ih =>
    intro cs ds hlike
    refine follows_of_heads (value_skipSpace _) (value_skipSpace _) hlike (follows_error rfl) ?_
    intro c cs' ds' hspace hhere _
    by_cases hlist : c = '['
    · subst hlist
      exact ((respects_items ih).map cs' ds' (hhere.tail (by decide))).tail rfl rfl
    by_cases hobject : c = '\x7b'
    · subst hobject
      have hmembers : Respects (members (freeMember (value levels)) []) :=
        respects_members (respects_freeMember ih)
      exact (hmembers.map cs' ds' (hhere.tail (by decide))).tail rfl rfl
    · have hread (es : List Char) : value (levels + 1) (c :: es) = scalar c es :=
        value_scalar (skipSpace_cons hspace es) hlist hobject
      exact follows_congr (hread cs') (hread ds') (scalar_follows hhere)

theorem runAll_alike {r : Reader α} (hr : Respects r) (hlike : Alike cs ds) {x : α}
    (h : r.runAll cs = .ok x) : r.runAll ds = .ok x := by
  cases hread : r cs with
  | error e =>
    rw [runAll, hread] at h
    cases h
  | ok p =>
    obtain ⟨y, rest⟩ := p
    obtain ⟨rest', hread', hrest, -⟩ := hr cs ds hlike y rest hread
    rw [runAll, hread] at h
    rw [runAll, hread']
    dsimp only at h ⊢
    have hspace := hrest.skipSpace
    rcases hspace.heads with ⟨hcs, hds⟩ | ⟨c, cs', ds', hcs, hds⟩
    · rw [finish, hcs] at h
      rw [finish, hds]
      exact h
    · rw [finish, hcs] at h
      cases h

end Reader

/-- Alike texts hold the same value, or neither holds one. -/
theorem Value.parse_alike {s t : String} (h : Alike s.toList t.toList) (v : Value) :
    Value.parse s = .ok v ↔ Value.parse t = .ok v := by
  constructor
  · exact Reader.runAll_alike (Reader.respects_value _) h
  · exact Reader.runAll_alike (Reader.respects_value _) h.symm

end Mockup.Json
