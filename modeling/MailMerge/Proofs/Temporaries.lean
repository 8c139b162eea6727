import MailMerge.Proofs.Naming
import MailMerge.Proofs.Tree.Resolution

/-!
# Temporary files are apart

Until the file of a row is complete it stands beside its destination, under a name made from the name of
the destination and the index of the row.  Rows that are in the making at the same time must not write
into one another's files, and the names of the files come from a dataset, where anything may stand: a name
may look like a temporary one, with the mark in it and digits at its end.

The index is what stands behind the last hyphen of a temporary name, and with it the name that is left can
be read off (`Path.temporaryName_inj`).  Every destination has a name that is text
(`Destination.exists_text_of_resolve`), which is all of what the temporary name says about it.  So two
temporary paths are the same only if both the destinations and the indices are
(`Destination.temporary_apart`).
-/

namespace MailMerge

open MailMerge.Path (IsPlain temporaryName)

set_option autoImplicit false

namespace Destination

variable {template : Path} {row : Row} {naming : Naming} {output : Option Path} {path : Path}

/-! ## Destinations -/

/-- A text with the template's extension is a text again. -/
theorem exists_text_withExtension (template : Path) (name : String) :
    ∃ text : String, withExtension template (utf8 name) = utf8 text := by
  cases there : template.extension? with
  | none => exact ⟨name, by rw [withExtension, there]⟩
  | some extension =>
    refine ⟨name ++ .ofList ('.' :: Utf8.decodeLossy extension), ?_⟩
    have dot : Utf8.encodeChar '.' = [Path.dot] := by decide
    rw [withExtension, there, utf8, utf8, String.toList_append, Utf8.encode_append,
      String.toList_ofList, Utf8.encode_cons, dot]
    rfl

/-- Every destination is an entry of its directory, under a name that is text. -/
theorem exists_text_of_resolve {index : Nat}
    (resolved : resolve template row naming output index = .ok path) :
    ∃ name : String, IsPlain (utf8 name) ∧
      path = (directory template output).join ⟨utf8 name⟩ := by
  cases naming with
  | fixed =>
    obtain ⟨name, -, plain, rfl⟩ := exists_fileName_of_resolve resolved
    have text : cleaned name = utf8 (.ofList (Utf8.decodeLossy name)) := by
      rw [utf8, String.toList_ofList, cleaned]
    exact ⟨_, text ▸ plain, text ▸ rfl⟩
  | fromRecord =>
    obtain ⟨name, -, plain, rfl⟩ := exists_chosen_of_resolve resolved
    obtain ⟨whole, text⟩ := exists_text_withExtension template name
    exact ⟨whole, text ▸ isPlain_withExtension plain, by rw [text]⟩

/-- A path is attainable if it is the destination of some row of some request. -/
def Attainable (path : Path) : Prop :=
  ∃ template row naming output index, resolve template row naming output index = .ok path

theorem Attainable.exists_text (attainable : Attainable path) :
    ∃ (directory : Path) (name : String), IsPlain (utf8 name) ∧
      path = directory.join ⟨utf8 name⟩ := by
  obtain ⟨template, row, naming, output, index, resolved⟩ := attainable
  exact ⟨_, exists_text_of_resolve resolved⟩

/-! ## Temporary paths -/

variable {name : Bytes}

/-- The temporary path has the components of the directory and one more, the temporary name. -/
theorem components_temporary_join (directory : Path) (plain : IsPlain name) (index : Nat) :
    (temporary (directory.join ⟨name⟩) index).components =
      directory.components ++ [.name (temporaryName name index)] := by
  rw [Path.temporary_join directory plain,
    Path.components_join _ (Path.isPlain_temporaryName plain index), Path.components_trimmed]

/-- The temporary path and the destination have the same parent. -/
theorem parent?_temporary_join (directory : Path) (plain : IsPlain name) (index : Nat) :
    (temporary (directory.join ⟨name⟩) index).parent? = some directory.trimmed := by
  rw [Path.temporary_join directory plain,
    Path.parent?_join _ (Path.isPlain_temporaryName plain index), Path.trimmed_trimmed]

/-- Two temporary paths are the same exactly if the destinations and the indices are, whatever stands in
the names.  With different indices they lead to different places, even in trees at different moments.  And
a temporary path has the same parent as its destination, and another name. -/
theorem temporary_apart {left right : Path} (attainable : Attainable left)
    (attainable' : Attainable right) (i j : Nat) :
    ((temporary left i).components = (temporary right j).components ↔
      left.components = right.components ∧ i = j) ∧
    (i ≠ j → ∀ (tree later : FileTree) (location : Location) (wanted wanted' : Bool),
      tree.target (temporary left i) = .ok (.place location wanted) →
      later.target (temporary right j) ≠ .ok (.place location wanted')) ∧
    ∃ parent name other, left.parent? = some parent ∧ (temporary left i).parent? = some parent ∧
      left.components = parent.components ++ [.name name] ∧
      (temporary left i).components = parent.components ++ [.name other] ∧ other ≠ name := by
  obtain ⟨directory, name, plain, rfl⟩ := attainable.exists_text
  obtain ⟨directory', name', plain', rfl⟩ := attainable'.exists_text
  refine ⟨?_, ?_, directory.trimmed, utf8 name, temporaryName (utf8 name) i, ?_, ?_, ?_, ?_, ?_⟩
  · rw [components_temporary_join directory plain, components_temporary_join directory' plain',
      Path.components_join directory plain, Path.components_join directory' plain',
      List.append_singleton_inj, List.append_singleton_inj, Path.Component.name.injEq,
      Path.Component.name.injEq, Path.temporaryName_inj]
    simp only [utf8, cleaned_encode]
    tauto
  · intro different tree later location wanted wanted' found found'
    rw [Path.temporary_join directory plain] at found
    rw [Path.temporary_join directory' plain'] at found'
    have head := FileTree.head?_of_place_join (Path.isPlain_temporaryName plain i) found
    have head' := FileTree.head?_of_place_join (Path.isPlain_temporaryName plain' j) found'
    exact different (Path.temporaryName_index (Option.some.inj (head.symm.trans head')))
  · exact Path.parent?_join directory plain
  · exact parent?_temporary_join directory plain i
  · rw [Path.components_join directory plain, Path.components_trimmed]
  · rw [components_temporary_join directory plain, Path.components_trimmed]
  · exact Path.temporaryName_ne (utf8 name) i

/-- One name imitates the temporary file of a row with the other, and one index begins with the other. -/
theorem temporary_apart_imitated :
    Attainable (.ofString "out/x") ∧ Attainable (.ofString "out/x.rowmerge-tmp-1") ∧ 11 ≠ 1 ∧
      (temporary (.ofString "out/x") 11).components ≠
        (temporary (.ofString "out/x.rowmerge-tmp-1") 1).components ∧
      (⟨[([utf8 "out"], .directory)], []⟩ : FileTree).target (temporary (.ofString "out/x") 11) =
        .ok (.place [utf8 ".x.rowmerge-tmp-11", utf8 "out"] false) ∧
      (⟨[([utf8 "out"], .directory)], []⟩ : FileTree).target
          (temporary (.ofString "out/x.rowmerge-tmp-1") 1) ≠
        .ok (.place [utf8 ".x.rowmerge-tmp-11", utf8 "out"] false) ∧
      ∃ parent name other, (Path.ofString "out/x").parent? = some parent ∧
        (temporary (.ofString "out/x") 11).parent? = some parent ∧
        (Path.ofString "out/x").components = parent.components ++ [.name name] ∧
        (temporary (.ofString "out/x") 11).components = parent.components ++ [.name other] ∧
        other ≠ name := by
  have attainable : Attainable (.ofString "out/x") :=
    ⟨.ofString "t", .ofPairs [("FileName", "x")], .fromRecord, some (.ofString "out"), 11,
      by decide +kernel⟩
  have attainable' : Attainable (.ofString "out/x.rowmerge-tmp-1") :=
    ⟨.ofString "t", .ofPairs [("FileName", "x.rowmerge-tmp-1")], .fromRecord,
      some (.ofString "out"), 1, by decide +kernel⟩
  have place : (⟨[([utf8 "out"], .directory)], []⟩ : FileTree).target
      (temporary (.ofString "out/x") 11) =
        .ok (.place [utf8 ".x.rowmerge-tmp-11", utf8 "out"] false) := by decide +kernel
  obtain ⟨same, places, beside⟩ := temporary_apart attainable attainable' 11 1
  refine ⟨attainable, attainable', by decide, fun equal => ?_, place, ?_, beside⟩
  · exact absurd (same.1 equal).2 (by decide)
  · exact places (by decide) _ _ _ _ _ place

end Destination

end MailMerge
