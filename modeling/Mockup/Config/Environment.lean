import Mockup.Config.Basic
import Mockup.Text.LowerCase

/-! What the environment changes in a configuration. -/

namespace Mockup.Config

abbrev Environment := String → Option String

namespace Environment

def ofList (vars : List (String × String)) : Environment := fun name => vars.lookup name

def filled? (env : Environment) (name : String) : Option String :=
  (env name).filter fun v => !Text.isBlankText v

end Environment

def backendOf? (text : String) : Option Backend :=
  let wanted := Text.lowerCase (Text.trimmed text)
  Backend.all.find? fun b => b.name = wanted

/-- The key that the environment gives. A blank key in the first variable hides the second one. -/
def keyOf? (env : Environment) (name : String) : Option String :=
  ((env "PROTOFORGE_API_KEY").or (env name)).filter fun k => !Text.isBlankText k

/-- The configuration with the overrides of the environment. A configured key stays. -/
def withEnvironment (env : Environment) (c : Config) : Config :=
  { c with
    modelOverride := (env.filled? "PROTOFORGE_MODEL").or c.modelOverride
    baseUrl := (env.filled? "PROTOFORGE_BASE_URL").getD c.baseUrl
    backend := ((env "PROTOFORGE_BACKEND").bind backendOf?).getD c.backend
    apiKey := c.apiKey.or (keyOf? env c.apiKeyVariable) }

end Mockup.Config
