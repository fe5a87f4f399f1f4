import Mockup.Files.Path
import Mockup.Spec.Record

/-! Manifests: what was last published for an owner. -/

namespace Mockup

open Json

structure Manifest where
  slug : String
  publicUrl : String
  path : Files.Path
  publishedAt : String
  spec : Spec

namespace Manifest

def record : Record Manifest where
  name := "Manifest"
  blank := ⟨"", "", ⟨""⟩, "", Spec.record.blank⟩
  fields := [
    .required "slug" .text .text Manifest.slug (fun v m => { m with slug := v }),
    .required "public_url" .text .text Manifest.publicUrl (fun v m => { m with publicUrl := v }),
    .required "path" ((Decoder.textAs "path string").map Files.Path.mk) (fun p => .text p.text)
      Manifest.path (fun v m => { m with path := v }),
    .required "published_at" .text .text Manifest.publishedAt
      (fun v m => { m with publishedAt := v }),
    .required "spec" Spec.record.decoder Spec.record.ordered Manifest.spec
      (fun v m => { m with spec := v })]

def indented (m : Manifest) : String := (record.ordered m).indented

def parse (text : String) : Except String Manifest :=
  match record.decoder.decode text with
  | .ok m => .ok m
  | .error f => .error (f.message text.toList)

end Manifest

end Mockup
