import Mockup.Proofs.Json.Draft
import Mockup.Store.Manifest

/-! Manifests read back. The four texts of a manifest come first in its own text and are read back
as they were written, whatever the specification after them is read as. -/

namespace Mockup.Manifest

open Json Reader

def line (key s : String) (rest : List Char) : List Char :=
  quoted key ++ ':' :: ' ' :: (quoted s ++ rest)

def next (rest : List Char) : List Char := ',' :: (Value.newline 1 ++ rest)

def ending : List Char := Value.newline 0 ++ ['\x7d']

def specLine (m : Manifest) : List Char :=
  quoted "spec" ++ ':' :: ' ' :: (Value.printIndented 1 (Spec.record.ordered m.spec) ++ ending)

theorem indented_eq (m : Manifest) :
    m.indented.toList = '\x7b' :: (Value.newline 1 ++
      line "slug" m.slug (next (line "public_url" m.publicUrl (next (line "path" m.path.text
        (next (line "published_at" m.publishedAt (next m.specLine)))))))) := by
  have hmembers : record.members m =
      [("slug", .text m.slug), ("public_url", .text m.publicUrl), ("path", .text m.path.text),
        ("published_at", .text m.publishedAt), ("spec", Spec.record.ordered m.spec)] := rfl
  rw [indented, Value.indented, Record.ordered, hmembers, String.toList_ofList]
  simp [Value.printIndented, Value.indentedMembers, line, next, specLine, ending]

/-- The texts of one manifest are those of the other. -/
structure SameTexts (m m' : Manifest) : Prop where
  slug : m'.slug = m.slug
  publicUrl : m'.publicUrl = m.publicUrl
  path : m'.path = m.path
  publishedAt : m'.publishedAt = m.publishedAt

def textKeys : List String := ["published_at", "path", "public_url", "slug"]

theorem yields_sameTexts (m : Manifest) (levels : Nat) (f : Json.Field Manifest)
    (hf : f ∈ record.fields) (hkey : f.key ∉ textKeys) :
    (f.update.read levels).Yields fun g => ∀ m', SameTexts m m' → SameTexts m (g m') := by
  simp only [record, List.mem_cons, List.not_mem_nil, or_false] at hf
  rcases hf with rfl | rfl | rfl | rfl | rfl
  · exact absurd (by decide) hkey
  · exact absurd (by decide) hkey
  · exact absurd (by decide) hkey
  · exact absurd (by decide) hkey
  · exact .map fun _ _ _ _ _ hm => ⟨hm.slug, hm.publicUrl, hm.path, hm.publishedAt⟩

variable {levels fuel : Nat} {key s : String} {f : Json.Field Manifest} {g : Manifest → Manifest}
  {x : Manifest} {seen : List String} {rest : List Char}

theorem readMember_line (hfield : record.field? key = some f) (hnew : key ∉ seen)
    (hread : f.update.read levels (' ' :: (quoted s ++ rest)) = .ok (g, rest)) :
    record.readMember levels ⟨x, seen⟩ (line key s rest) = .ok (⟨g x, key :: seen⟩, rest) :=
  Record.readMember_eq hfield hnew hread

theorem moreMembers_line (hfield : record.field? key = some f) (hnew : key ∉ seen)
    (hread : f.update.read levels (' ' :: (quoted s ++ rest)) = .ok (g, rest)) :
    moreMembers (record.readMember levels) (fuel + 1) ⟨x, seen⟩ (next (line key s rest)) =
      moreMembers (record.readMember levels) fuel ⟨g x, key :: seen⟩ rest := by
  have hmember := readMember_line (x := x) hfield hnew hread
  unfold line at hmember
  unfold next line
  rw [moreMembers_newline, Reader.andThen, hmember]

theorem read_text (levels : Nat) (set : String → Manifest → Manifest) (s : String)
    (rest : List Char) :
    (Decoder.text.map set).read levels (' ' :: (quoted s ++ rest)) = .ok (set s, rest) := by
  simp only [Decoder.map, Decoder.text, Reader.map, textAs_read]

theorem read_path (levels : Nat) (set : Files.Path → Manifest → Manifest) (s : String)
    (rest : List Char) :
    (((Decoder.textAs "path string").map Files.Path.mk).map set).read levels
      (' ' :: (quoted s ++ rest)) = .ok (set ⟨s⟩, rest) := by
  simp only [Decoder.map, Reader.map, textAs_read]

def textsDraft (m : Manifest) : Record.Draft Manifest :=
  ⟨{ m with spec := Spec.record.blank }, textKeys⟩

theorem members_indented (m : Manifest) (levels : Nat) (rest : List Char) :
    ∃ fuel, rest.length < fuel ∧
      members (record.readMember levels) ⟨record.blank, []⟩ (Value.newline 1 ++
        line "slug" m.slug (next (line "public_url" m.publicUrl (next (line "path" m.path.text
          (next (line "published_at" m.publishedAt rest))))))) =
        moreMembers (record.readMember levels) fuel (textsDraft m) rest := by
  have hfirst (draft : Record.Draft Manifest) (text : List Char) :
      members (record.readMember levels) draft (Value.newline 1 ++ line "slug" m.slug text) =
        ((record.readMember levels draft).andThen fun d r =>
          moreMembers (record.readMember levels) (r.length + 1) d r) (line "slug" m.slug text) := by
    simp only [members, skipSpace_newline, line, skipSpace_quoted]
    rfl
  obtain ⟨fuel, hfuel⟩ : ∃ fuel, (next (line "public_url" m.publicUrl (next (line "path" m.path.text
      (next (line "published_at" m.publishedAt rest)))))).length + 1 = fuel + 3 := by
    refine ⟨_, (Nat.sub_add_cancel ?_).symm⟩
    simp only [next, line, List.length_cons, List.length_append]
    omega
  refine ⟨fuel, ?_, ?_⟩
  · simp only [next, line, List.length_cons, List.length_append] at hfuel
    omega
  rw [hfirst, Reader.andThen, readMember_line rfl (by simp) (read_text ..)]
  simp only [hfuel]
  rw [moreMembers_line rfl (by decide) (read_text ..),
    moreMembers_line rfl (by decide) (read_path ..),
    moreMembers_line rfl (by decide) (read_text ..)]
  rfl

theorem readObject_of_parse {text : List Char} {m : Manifest}
    (h : parse (String.ofList ('\x7b' :: text)) = .ok m) :
    ∃ levels rest, record.readObject levels text = .ok (m, rest) := by
  have hbrace (cs : List Char) : skipSpace ('\x7b' :: cs) = '\x7b' :: cs := rfl
  simp only [parse, Decoder.decode, String.toList_ofList, Reader.runAll, Record.decoder,
    Reader.atValue, hbrace, if_pos] at h
  split at h
  · next m' hok =>
    split at hok
    · next x rest hread =>
      refine ⟨126, rest, ?_⟩
      have hx : x = m' := by
        rw [Reader.finish] at hok
        split at hok
        · exact Except.ok.inj hok
        · cases hok
      rw [← Except.ok.inj h, ← hx]
      exact hread
    · cases hok
  · cases h

theorem sameTexts_of_parse {m m' : Manifest} (h : parse m.indented = .ok m') : SameTexts m m' := by
  rw [← String.ofList_toList (s := m.indented), indented_eq] at h
  obtain ⟨levels, unread, hread⟩ := readObject_of_parse h
  obtain ⟨fuel, -, hmembers⟩ := members_indented m levels (next m.specLine)
  rw [Record.readObject, Reader.andThen, hmembers] at hread
  split at hread
  · next draft r hdraft =>
    split at hread
    · cases hread
    · -- whatever the specification is read as, no text is read twice
      have hkeep := Yields.moreMembers
        (fun d hd => Record.yields_readMember (yields_sameTexts m levels) d hd) fuel (textsDraft m)
        ⟨fun _ hk => hk, ⟨rfl, rfl, rfl, rfl⟩⟩ _ draft r hdraft
      cases hread
      exact hkeep.2
  · cases hread

def Legible (m : Manifest) : Prop := ∃ m', parse m.indented = .ok m' ∧ m'.spec = m.spec

theorem Legible.parse_indented {m : Manifest} (h : m.Legible) : parse m.indented = .ok m := by
  obtain ⟨m', hparse, hspec⟩ := h
  obtain ⟨hslug, hurl, hpath, htime⟩ := sameTexts_of_parse hparse
  rw [hparse]
  cases m
  cases m'
  simp_all

theorem parse_of_readObject {text : List Char} {m : Manifest}
    (h : record.readObject 126 text = .ok (m, [])) :
    parse (String.ofList ('\x7b' :: text)) = .ok m := by
  have hread : record.decoder.read Reader.maxLevels ('\x7b' :: text) = .ok (m, []) := h
  have hfinish : Reader.finish m [] = .ok m := rfl
  simp only [parse, Decoder.decode, String.toList_ofList, Reader.runAll, hread, hfinish]

def specField : Json.Field Manifest :=
  .required "spec" Spec.record.decoder Spec.record.ordered Manifest.spec
    fun v m => { m with spec := v }

/-- Whether a manifest can be read back is a matter of its specification only. -/
theorem legible_of_read {m : Manifest}
    (h : Spec.record.decoder.read 126
      (' ' :: (Value.printIndented 1 (Spec.record.ordered m.spec) ++ ending)) =
        .ok (m.spec, ending)) : m.Legible := by
  refine ⟨m, ?_, rfl⟩
  obtain ⟨fuel, hfuel, hmembers⟩ := members_indented m 126 (next m.specLine)
  obtain ⟨fuel, rfl⟩ : ∃ n, fuel = n + 2 := by
    refine ⟨_, (Nat.sub_add_cancel ?_).symm⟩
    simp only [next, List.length_cons] at hfuel
    omega
  have hfield : record.field? "spec" = some specField := rfl
  have hvalue : specField.update.read 126
      (' ' :: (Value.printIndented 1 (Spec.record.ordered m.spec) ++ ending)) =
        .ok (fun m' => { m' with spec := m.spec }, ending) := by
    simp only [specField, Field.required, Decoder.map, Reader.map, h]
  have hnew : "spec" ∉ (textsDraft m).seen := by
    show "spec" ∉ textKeys
    decide
  have hspec : record.readMember 126 (textsDraft m) m.specLine =
      .ok (⟨m, "spec" :: textKeys⟩, ending) := by
    unfold specLine
    exact Record.readMember_eq hfield hnew hvalue
  rw [← String.ofList_toList (s := m.indented), indented_eq]
  refine parse_of_readObject ?_
  rw [Record.readObject, Reader.andThen, hmembers]
  unfold specLine at hspec
  unfold next specLine
  rw [moreMembers_newline, Reader.andThen, hspec]
  rfl

end Mockup.Manifest
