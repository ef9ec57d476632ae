import AccumulatorMachine.Machine.Load
import AccumulatorMachine.Proofs.FileTrees
import AccumulatorMachine.Proofs.JsonLayout

/-!
# Images are read back

The text of an image, as image files hold it or without any layout, denotes the image. Nothing is
asked of its records: any text may stand in their fields. So an image that has been saved is read
back from its file.
-/

namespace AccumulatorMachine.Image

theorem Record.ofJson?_toJson (r : Record) :
    Record.ofJson? (r.toJson.mapStrings Json.contentOf) = some r := by
  obtain ⟨address, label, mnemonic, operandToken, word⟩ := r
  simp [Record.toJson, Json.mapStrings, Json.mapFields, Record.ofJson?,
    Json.Content.text?_contentOf, Record.fieldNames, Record.namedText?, Json.field?, Record.text?,
    Record.ofTexts]

theorem mapM_ofJson?_toJson (records : List Record) :
    (Json.mapItems Json.contentOf (records.map Record.toJson)).mapM Record.ofJson? =
      some records := by
  induction records with
  | nil => rfl
  | cons r records ih =>
    rw [List.map_cons, Json.mapItems, List.mapM_cons, Record.ofJson?_toJson, ih]
    rfl

theorem ofJson?_toJson (image : Image) :
    ofJson? (image.toJson.mapStrings Json.contentOf) = some image := by
  rw [toJson, Json.mapStrings, ofJson?, mapM_ofJson?_toJson]
  rfl

theorem numbers_toJson (image : Image) : image.toJson.numbers = [] := by
  obtain ⟨records⟩ := image
  unfold toJson Json.numbers
  induction records with
  | nil => rfl
  | cons r records ih =>
    rw [List.map_cons, Json.itemNumbers, ih]
    rfl

/-- A text that denotes an image: as a string, as the bytes of a reader and as a file, it is read
as the image, and a load of what has been read is a load of the image. -/
structure IsTextOf (text : String) (image : Image) : Prop where
  ofText : ofText text = .ok image
  ofBytes : ofBytes (Json.utf8 text) = .ok image
  readImage : ∀ (t : FileTree) (path : String),
    t.openFile path = .ok (some (Json.utf8 text)) → t.readImage path = .ok image
  load : ∀ m : Machine, (Machine.loadRead (Image.ofText text)).run m = (Machine.load image).run m

theorem isTextOf_of_ofBytes? {text : String} {image : Image}
    (h : Json.ofBytes? (Json.utf8 text) = some (image.toJson.mapStrings Json.contentOf)) :
    IsTextOf text image := by
  have hread : ofBytes (Json.utf8 text) = .ok image := by
    rw [ofBytes, h, Option.bind_some, ofJson?_toJson]
  exact {
    ofText := hread
    ofBytes := hread
    readImage := by
      intro t path hopen
      rw [FileTree.readImage, hopen, ← hread]
    load := by
      intro m
      rw [ofText, hread]
      rfl }

theorem isTextOf_fileText (image : Image) : IsTextOf image.fileText image := by
  apply isTextOf_of_ofBytes?
  apply Json.ofBytes?_indented
  simp [numbers_toJson]

theorem isTextOf_compactText (image : Image) : IsTextOf image.compactText image := by
  apply isTextOf_of_ofBytes?
  apply Json.ofBytes?_compact
  simp [numbers_toJson]

/-- Whatever the fields of its records hold, an image is read back from the text that image files
hold and from the text without any layout. -/
theorem texts_read_back (image : Image) :
    IsTextOf image.fileText image ∧ IsTextOf image.compactText image :=
  ⟨isTextOf_fileText image, isTextOf_compactText image⟩

end AccumulatorMachine.Image

namespace AccumulatorMachine.FileTree

/-- An image that has been saved is read back. Outside the tree there is none to be read. -/
theorem readImage_of_saveImage {t t' : FileTree} {path : String} {image : Image}
    (h : t.saveImage path image = .ok t') :
    t'.readImage path = .ok image ∨
      t' = t ∧ t'.readImage path = .error (.unreadable path FileError.notFound.message) := by
  unfold saveImage at h
  split at h
  next => cases h
  next hwrite =>
    cases h
    rcases openFile_of_write hwrite with hopen | ⟨hsame, hopen⟩
    · exact .inl (image.isTextOf_fileText.readImage t' path hopen)
    · refine .inr ⟨hsame, ?_⟩
      rw [readImage, hopen]

end AccumulatorMachine.FileTree
