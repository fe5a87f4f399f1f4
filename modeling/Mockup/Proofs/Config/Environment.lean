import Mockup.Config.Environment
import Mockup.Proofs.Text.Trim

/-! What the environment changes in a configuration. A blank variable counts as a missing one, with
one exception: in the first of the two variables for the key it hides a key in the second. -/

namespace Mockup.Config

open Text (isBlankText trimmed_of_blank)

variable {env : Environment} {name t : String}

namespace Environment

def withoutBlanks (env : Environment) : Environment := env.filled?

/-- A blank text stands before a key that could be used. -/
structure Hides (env : Environment) (name : String) : Prop where
  blank : ∃ k, env "PROTOFORGE_API_KEY" = some k ∧ isBlankText k = true
  usable : ∃ k, env name = some k ∧ isBlankText k = false

theorem filled?_withoutBlanks (env : Environment) (name : String) :
    env.withoutBlanks.filled? name = env.filled? name := by
  rw [filled?, withoutBlanks, filled?, Option.filter_filter]
  simp only [Bool.and_self]

theorem filled?_of_none (h : env name = none) : env.filled? name = none := by
  rw [filled?, h, Option.filter_none]

theorem filled?_of_blank (h : env name = some t) (ht : isBlankText t = true) :
    env.filled? name = none := by
  rw [filled?, h, Option.filter_some, ht]
  rfl

theorem filled?_of_usable (h : env name = some t) (ht : isBlankText t = false) :
    env.filled? name = some t := by
  rw [filled?, h, Option.filter_some, ht]
  rfl

end Environment

open Environment

theorem backendOf?_of_blank (h : isBlankText t = true) : backendOf? t = none := by
  rw [backendOf?, trimmed_of_blank h]
  decide

theorem bind_backendOf?_withoutBlanks (env : Environment) (name : String) :
    (env.withoutBlanks name).bind backendOf? = (env name).bind backendOf? := by
  rw [withoutBlanks]
  cases h : env name with
  | none => rw [filled?_of_none h]
  | some t =>
    cases ht : isBlankText t with
    | false => rw [filled?_of_usable h ht]
    | true => rw [filled?_of_blank h ht, Option.bind_some, backendOf?_of_blank ht, Option.bind_none]

theorem keyOf?_of_none (h : env "PROTOFORGE_API_KEY" = none) :
    keyOf? env name = env.filled? name := by
  rw [keyOf?, h, Option.none_or, filled?]

theorem keyOf?_of_some (h : env "PROTOFORGE_API_KEY" = some t) :
    keyOf? env name = env.filled? "PROTOFORGE_API_KEY" := by
  rw [keyOf?, filled?, h, Option.some_or]

theorem keyOf?_withoutBlanks (env : Environment) (name : String) :
    keyOf? env.withoutBlanks name = (env.filled? "PROTOFORGE_API_KEY").or (env.filled? name) := by
  cases h : env.withoutBlanks "PROTOFORGE_API_KEY" with
  | none =>
    have hfirst : env.filled? "PROTOFORGE_API_KEY" = none := h
    rw [keyOf?_of_none h, filled?_withoutBlanks, hfirst, Option.none_or]
  | some k =>
    have hfirst : env.filled? "PROTOFORGE_API_KEY" = some k := h
    rw [keyOf?_of_some h, filled?_withoutBlanks, hfirst, Option.some_or]

theorem keyOf?_of_hides (h : env.Hides name) : keyOf? env name = none := by
  obtain ⟨k, hk, hblank⟩ := h.blank
  rw [keyOf?_of_some hk, filled?_of_blank hk hblank]

theorem keyOf?_of_not_hides (h : ¬ env.Hides name) :
    keyOf? env name = (env.filled? "PROTOFORGE_API_KEY").or (env.filled? name) := by
  cases hfirst : env "PROTOFORGE_API_KEY" with
  | none => rw [keyOf?_of_none hfirst, filled?_of_none hfirst, Option.none_or]
  | some k =>
    rw [keyOf?_of_some hfirst]
    cases hk : isBlankText k with
    | false => rw [filled?_of_usable hfirst hk, Option.some_or]
    | true =>
      -- the second variable has no key either, or it would be hidden
      rw [filled?_of_blank hfirst hk, Option.none_or]
      cases hsecond : env name with
      | none => rw [filled?_of_none hsecond]
      | some t =>
        cases ht : isBlankText t with
        | false => exact absurd ⟨⟨k, hfirst, hk⟩, t, hsecond, ht⟩ h
        | true => rw [filled?_of_blank hsecond ht]

theorem keyOf?_withoutBlanks_of_hides (h : env.Hides name) :
    keyOf? env.withoutBlanks name = env name := by
  obtain ⟨⟨k, hk, hblank⟩, t, ht, husable⟩ := h
  rw [keyOf?_withoutBlanks, filled?_of_blank hk hblank, Option.none_or, filled?_of_usable ht husable,
    ht]

theorem withEnvironment_withoutBlanks (env : Environment) (c : Config) :
    c.withEnvironment env.withoutBlanks =
      { c.withEnvironment env with
        apiKey := c.apiKey.or (keyOf? env.withoutBlanks c.apiKeyVariable) } := by
  simp only [withEnvironment, filled?_withoutBlanks, bind_backendOf?_withoutBlanks]

theorem withEnvironment_eq_of_not_hides {c : Config}
    (h : ¬ (c.apiKey = none ∧ env.Hides c.apiKeyVariable)) :
    c.withEnvironment env.withoutBlanks = c.withEnvironment env := by
  rw [withEnvironment_withoutBlanks]
  cases hkey : c.apiKey with
  | some k => simp only [withEnvironment, hkey, Option.some_or]
  | none =>
    have hnot : ¬ env.Hides c.apiKeyVariable := fun hhides => h ⟨hkey, hhides⟩
    simp only [withEnvironment, hkey, keyOf?_withoutBlanks, keyOf?_of_not_hides hnot]

theorem withEnvironment_of_hides {c : Config} (hkey : c.apiKey = none)
    (h : env.Hides c.apiKeyVariable) :
    (c.withEnvironment env).apiKey = none ∧
      c.withEnvironment env.withoutBlanks =
        { c.withEnvironment env with apiKey := env c.apiKeyVariable } := by
  constructor
  · rw [withEnvironment, hkey, keyOf?_of_hides h, Option.none_or]
  · rw [withEnvironment_withoutBlanks, hkey, keyOf?_withoutBlanks_of_hides h, Option.none_or]

theorem withEnvironment_withEnvironment (env : Environment) (c : Config) :
    (c.withEnvironment env).withEnvironment env = c.withEnvironment env := by
  simp only [withEnvironment]
  congr 1
  · cases (env "PROTOFORGE_BACKEND").bind backendOf? <;> rfl
  · rw [← Option.or_assoc, Option.or_self]
  · cases env.filled? "PROTOFORGE_BASE_URL" <;> rfl
  · rw [Option.or_assoc, Option.or_self]

/-- Blank variables do nothing, unless one stands before a key that could be used: then there is no
key, and without the blank variable it would be that one. Applying the environment again changes
nothing; and it changes the override, the address, the backend and a key that was not there, at
most. -/
theorem environment_bounded (env : Environment) (c : Config) :
    (c.withEnvironment env.withoutBlanks = c.withEnvironment env ↔
      ¬ (c.apiKey = none ∧ env.Hides c.apiKeyVariable)) ∧
    (c.apiKey = none → env.Hides c.apiKeyVariable → (c.withEnvironment env).apiKey = none ∧
      c.withEnvironment env.withoutBlanks =
        { c.withEnvironment env with apiKey := env c.apiKeyVariable }) ∧
    (c.withEnvironment env).withEnvironment env = c.withEnvironment env ∧
    (∃ model url backend key, c.withEnvironment env =
      { c with modelOverride := model, baseUrl := url, backend := backend, apiKey := key }) ∧
    ∀ key, c.apiKey = some key → (c.withEnvironment env).apiKey = some key := by
  refine ⟨⟨fun hsame => ?_, withEnvironment_eq_of_not_hides⟩, withEnvironment_of_hides,
    withEnvironment_withEnvironment env c, ⟨_, _, _, _, rfl⟩, fun key hkey => ?_⟩
  · rintro ⟨hkey, hhides⟩
    obtain ⟨hnone, hwithout⟩ := withEnvironment_of_hides hkey hhides
    obtain ⟨-, k, hk, -⟩ := hhides
    rw [hsame] at hwithout
    rw [hwithout, hk] at hnone
    cases hnone
  · rw [withEnvironment, hkey, Option.some_or]

def hidingEnvironment : Environment :=
  Environment.ofList [("PROTOFORGE_API_KEY", " "), ("OPENAI_API_KEY", "sk")]

theorem hides_hidingEnvironment : hidingEnvironment.Hides "OPENAI_API_KEY" :=
  ⟨⟨" ", rfl, by decide⟩, "sk", rfl, by decide⟩

/-- A key is lost by a variable that is blank. -/
theorem blank_key_hides_key :
    (withEnvironment hidingEnvironment {}).apiKey = none ∧
      (withEnvironment hidingEnvironment.withoutBlanks {}).apiKey = some "sk" ∧
      withEnvironment hidingEnvironment.withoutBlanks {} ≠ withEnvironment hidingEnvironment {} := by
  obtain ⟨hnone, hwithout⟩ := withEnvironment_of_hides (c := {}) rfl hides_hidingEnvironment
  refine ⟨hnone, ?_, fun hsame => ?_⟩
  · rw [hwithout]
    rfl
  · rw [hsame] at hwithout
    rw [hwithout] at hnone
    cases hnone

theorem environment_bounded_hiding :
    (withEnvironment hidingEnvironment.withoutBlanks {}).apiKey = some "sk" ∧
      (withEnvironment hidingEnvironment { apiKey := some "own" }).apiKey = some "own" := by
  obtain ⟨-, hhidden, -⟩ := environment_bounded hidingEnvironment {}
  obtain ⟨-, -, -, -, hkept⟩ := environment_bounded hidingEnvironment { apiKey := some "own" }
  refine ⟨?_, hkept "own" rfl⟩
  rw [(hhidden rfl hides_hidingEnvironment).2]
  rfl

end Mockup.Config
