import Mockup.Bundle.Basic
import Mockup.Proofs.Bundle.Embedded
import Mockup.Proofs.Spec.Equal

/-! What a script gives to the page that it makes. The page reads the first line of the script, in
which the specification is written, and has it back if there are no doubles in it. -/

namespace Mockup.Script

open Json Text

variable {s : Spec} {n : Nat}

/-- The first line of a script holds the value, which is read from it with any number of levels
that is large enough. -/
def Gives (script : String) (v : Value) : Prop :=
  ∃ text : String,
    (splitAt '\n' script.toList).head? =
      some ("window.__PROTOFORGE_SPEC__ = " ++ text ++ ";").toList ∧
    ∃ enough, ∀ levels ≥ enough, (Reader.value levels).runAll text.toList = .ok v

theorem runAll_print {v : Value} (hreal : v.RealFree) (hlevels : v.levels ≤ n) :
    (Reader.value n).runAll v.print = .ok v.normal := by
  have hread := (Decoder.recovers_normal hreal).reads .compact n 0 Reader.ends_nil
  rw [Value.spaced_compact, List.append_nil] at hread
  have hvalue : Reader.value n v.print = .ok (v.normal, []) := hread.reads hlevels
  rw [Reader.runAll, hvalue]
  rfl

theorem runAll_embed (hreal : s.RealFree) (hlevels : (Spec.record.ordered s).levels ≤ n) :
    (Reader.value n).runAll (embed s).toList = .ok s.toValue := by
  have hprint : (Reader.value n).runAll (Spec.record.ordered s).print = .ok s.toValue :=
    runAll_print hreal.ordered hlevels
  rw [embed, String.toList_ofList]
  exact Reader.runAll_alike (Reader.respects_value n) (alike_shield (Value.lexed_print _)) hprint

theorem gives_toValue (hreal : s.RealFree) : Gives (render s) s.toValue := by
  refine ⟨embed s, ?_, _, fun levels hlevels => runAll_embed hreal hlevels⟩
  rw [splitAt_render, List.head?_cons]
  rfl

end Mockup.Script
