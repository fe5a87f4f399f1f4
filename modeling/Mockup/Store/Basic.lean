import Mockup.Bundle.Basic
import Mockup.Config.Basic
import Mockup.Files.Step
import Mockup.Store.Manifest

/-! The store of published bundles. The bundle of an owner is in a directory named by its slug in
the directory of the owner, beside the manifest of what was last published. -/

namespace Mockup

open Files (Disk Act)

structure Store where
  root : Files.Path
  /-- The address of the root for visitors, without a slash at the end. -/
  publicBase : String

inductive StoreError where
  | invalidOwner (owner : String)
  | cannotRead (p : Files.Path) (fault : Files.Fault)
  | cannotParse (p : Files.Path) (why : String)
  | cannotCreate (p : Files.Path) (fault : Files.Fault)
  | cannotWrite (p : Files.Path) (fault : Files.Fault)
  | cannotRemove (p : Files.Path) (fault : Files.Fault)
  | outside (p root : Files.Path)

namespace StoreError

def message : StoreError → String
  | invalidOwner owner => "Invalid owner id '" ++ owner ++ "': use letters, digits, '-' or '_'"
  | cannotRead p _ => "Failed to read " ++ p.text
  | cannotParse p _ => "Failed to parse " ++ p.text
  | cannotCreate p _ => "Failed to create " ++ p.text
  | cannotWrite p _ => "Failed to write " ++ p.text
  | cannotRemove p _ => "Failed to remove " ++ p.text
  | outside p root => "Refusing to delete " ++ p.text ++ " outside " ++ root.text

def fault? : StoreError → Option Files.Fault
  | cannotRead _ f => some f
  | cannotCreate _ f => some f
  | cannotWrite _ f => some f
  | cannotRemove _ f => some f
  | _ => none

def reason? : StoreError → Option String
  | cannotParse _ why => some why
  | _ => none

def account (e : StoreError) : String :=
  ": ".intercalate (e.message :: e.reason?.toList ++ (e.fault?.map Files.Fault.message).toList)

end StoreError

structure StoredBundle where
  publicUrl : String
  path : Files.Path

structure PublishedBundle where
  slug : String
  publicUrl : String
  path : Files.Path
  /-- Whether the stored bundle was up to date already, so that nothing was written. -/
  reused : Bool

namespace Store

def create (root : Files.Path) (publicBaseUrl : String) : Store :=
  ⟨root, String.ofList (Text.dropEnd (· = '/') publicBaseUrl.toList)⟩

def ofConfig (c : Config) : Store := create ⟨c.outputDir⟩ c.publicBaseUrl

def isOwnerChar (c : Char) : Bool := c.isAlphanum || c = '-' || c = '_'

def isOwner (owner : String) : Bool := owner ≠ "" && owner.toList.all isOwnerChar

def ownerDir (s : Store) (owner : String) : Except StoreError Files.Path :=
  if isOwner owner then .ok (s.root.join owner) else .error (.invalidOwner owner)

def manifestName : String := "manifest.json"

def publicUrl (s : Store) (owner slug : String) : String :=
  "/".intercalate [s.publicBase, owner, slug, Bundle.markupFile]

def manifestIn (d : Disk) (dir : Files.Path) : Except StoreError (Option Manifest) :=
  let p := dir.join manifestName
  if d.has p then
    match d.read p with
    | .error f => .error (.cannotRead p f)
    | .ok text =>
      match Manifest.parse text with
      | .error why => .error (.cannotParse p why)
      | .ok m => .ok (some m)
  else .ok none

def loadManifest (s : Store) (d : Disk) (owner : String) : Except StoreError (Option Manifest) :=
  match s.ownerDir owner with
  | .error e => .error e
  | .ok dir => manifestIn d dir

def writing (p : Files.Path) (text : String) : Act StoreError :=
  .perform (.write p text) (.cannotWrite p)

def storing (dir : Files.Path) (b : Bundle) : List (Act StoreError) :=
  .perform (.makeDirs dir) (.cannotCreate dir) ::
    b.files.map fun f => writing (dir.join f.1) f.2

def deleting (s : Store) (p : Files.Path) : Act StoreError :=
  if s.root.isInside p then .perform (.discard p) (.cannotRemove p)
  else .refuse (.outside p s.root)

def finish {α : Type} (x : α) : Disk × Option StoreError → Except StoreError α × Disk
  | (d, none) => (.ok x, d)
  | (d, some e) => (.error e, d)

def store (s : Store) (d : Disk) (owner : String) (b : Bundle) :
    Except StoreError StoredBundle × Disk :=
  match s.ownerDir owner with
  | .error e => (.error e, d)
  | .ok dir =>
    let path := dir.join b.slug
    finish ⟨s.publicUrl owner b.slug, path⟩ (Files.runActs d (storing path b))

def delete (s : Store) (d : Disk) (p : Files.Path) : Except StoreError Unit × Disk :=
  finish () ((s.deleting p).run d)

/-- Whether a manifest describes a bundle of the specification that is still there. -/
def isCurrent (d : Disk) (spec : Spec) (m : Manifest) : Bool :=
  m.spec.same spec && d.has (m.path.join Bundle.markupFile)

def outdated (previous : Option Manifest) (path : Files.Path) : Option Files.Path :=
  (previous.filter fun m => !m.path.same path).map Manifest.path

def replacing (s : Store) (dir : Files.Path) (previous : Option Manifest) (b : Bundle)
    (m : Manifest) : List (Act StoreError) :=
  storing m.path b ++ ((outdated previous m.path).map s.deleting).toList ++
    [writing (dir.join manifestName) m.indented]

/-- Publishes a specification unless it is what was last published and its bundle is still there.
`spare` is the slug for titles that leave none, and `time` the time of publishing. -/
def publish (s : Store) (d : Disk) (spare time owner : String) (spec : Spec) :
    Except StoreError PublishedBundle × Disk :=
  match s.ownerDir owner with
  | .error e => (.error e, d)
  | .ok dir =>
    match manifestIn d dir with
    | .error e => (.error e, d)
    | .ok previous =>
      match previous.filter (isCurrent d spec) with
      | some m => (.ok ⟨m.slug, m.publicUrl, m.path, true⟩, d)
      | none =>
        let b := Bundle.compile spare spec
        let m : Manifest := ⟨b.slug, s.publicUrl owner b.slug, dir.join b.slug, time, spec⟩
        finish ⟨m.slug, m.publicUrl, m.path, false⟩
          (Files.runActs d (s.replacing dir previous b m))

def deleteOwner (s : Store) (d : Disk) (owner : String) : Except StoreError Bool × Disk :=
  match s.ownerDir owner with
  | .error e => (.error e, d)
  | .ok dir =>
    if d.has dir then
      finish true (Act.run d (.perform (.removeDir dir) (.cannotRemove dir)))
    else (.ok false, d)

end Store

end Mockup
