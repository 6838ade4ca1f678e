import GlycinNg.Loader
import GlycinNg.Rust.Utf8
import GlycinNg.Store.Entries

/-! # Text metadata

The text chunks of a PNG file on their way to a C caller: merged into one map, copied into
C strings where both parts can be, listed by index and searched by key. What arrives is
said in terms of the chunks (`textMetadata_exact`). -/
namespace GlycinNg
open Rust Store

/-! ## From the chunks to the image -/

namespace Png

/-- The text chunks in the order `extract_metadata` takes them, each with its text if that
can be decoded. -/
def Reader.textChunks (r : Reader) : List (String × Option String) :=
  r.uncompressedLatin1Text.map (fun chunk => (chunk.1, some chunk.2)) ++
    r.compressedLatin1Text ++ r.utf8Text

/-- The three loops are one. -/
theorem textMap_eq (r : Reader) : textMap r = r.textChunks.foldl insertGiven ∅ := by
  rw [Reader.textChunks, List.foldl_append, List.foldl_append, List.foldl_map, textMap]
  refine (List.foldl_ext _ insertGiven _ ?_).trans
    (congrArg (r.utf8Text.foldl insertGiven ·) (List.foldl_ext _ insertGiven _ ?_))
  all_goals
    rintro map ⟨key, text⟩ -
    cases text <;> rfl

theorem getElem?_textMap (r : Reader) (key text : String) :
    (textMap r)[key]? = some text ↔ LastValue r.textChunks key text := by
  rw [textMap_eq]
  exact getElem?_insertAll r.textChunks key text

theorem textMap_isEmpty_iff (r : Reader) :
    (textMap r).isEmpty = true ↔ ∀ chunk ∈ r.textChunks, chunk.2 = none := by
  rw [textMap_eq]
  exact isEmpty_insertAll r.textChunks

@[simp] theorem extractMetadata_metadataKeyValue (image : Image) (r : Reader) :
    (extractMetadata image r).metadataKeyValue =
      if (textMap r).isEmpty then none else some (textMap r) := by
  unfold extractMetadata
  cases r.codingIndependentCodePoints <;> rfl

theorem decode_metadataKeyValue {png : Crate} {littleEndian : Bool} {bytes : Bytes}
    {opts : DecodeOptions} {img : Image} {r : Reader}
    (h : (decode png littleEndian bytes opts).result = .ok img)
    (hr : png (memoryLimit opts) bytes = .ok r) :
    img.metadataKeyValue = if (textMap r).isEmpty then none else some (textMap r) := by
  obtain ⟨r', hr', h⟩ := Traced.perform_bind_eq_ok.mp h
  obtain rfl : r' = r := Except.ok.inj ((mapError_eq_ok.mp hr').symm.trans hr)
  obtain ⟨_, -, h⟩ := Traced.lift_bind_eq_ok.mp h
  obtain ⟨format, -, h⟩ := Traced.lift_bind_eq_ok.mp h
  obtain ⟨frames, -, h⟩ := Traced.bind_eq_ok.mp h
  cases h
  exact extractMetadata_metadataKeyValue _ _

end Png

/-- Nothing between the decoder and the caller touches the map. -/
theorem Loader.load_metadataKeyValue {loader : Loader} {host : Host} {bytes : Bytes}
    {r : Png.Reader} {img : Image} (hbytes : loader.source.readAll host = .ok bytes)
    (hformat : loader.chooseFormat bytes = some .png)
    (hr : host.codecs.png (memoryLimit loader.options) bytes = .ok r)
    (hload : loader.load host = .ok (.ok img)) :
    img.metadataKeyValue =
      if (Png.textMap r).isEmpty then none else some (Png.textMap r) := by
  obtain ⟨base, posture, oriented, hdecoded, horiented, rfl⟩ := load_ok hload
  obtain ⟨bytes', format, hbytes', hformat', hdispatch⟩ := decoded_ok hdecoded
  obtain rfl : bytes' = bytes := Except.ok.inj (hbytes'.symm.trans hbytes)
  obtain rfl : format = .png := Option.some.inj (hformat'.symm.trans hformat)
  calc oriented.metadataKeyValue
      = base.metadataKeyValue :=
        (Metadata.applyOrientationIfPresent_metadata horiented).metadataKeyValue
    _ = _ := Png.decode_metadataKeyValue hdispatch hr

/-! ## From the image to the caller -/

namespace CApi

/-- `GlycinNgImage`: the image and the C strings its accessors hand out. -/
structure GlycinNgImage where
  inner : Image
  metadata : List (CString × CString)

/-- `GlycinNgImage::wrap`. -/
def GlycinNgImage.wrap (image : Image) : GlycinNgImage where
  inner := image
  metadata := (image.metadataKeyValue.map fun map =>
    map.toList.filterMap fun pair =>
      do return (← CString.new pair.1, ← CString.new pair.2)).getD []

/-- `glycin_ng_image_metadata_key_count`; NULL is `none`. -/
def imageMetadataKeyCount (image : Option GlycinNgImage) : Nat :=
  (image.map fun handle => handle.metadata.length).getD 0

/-- `glycin_ng_image_metadata_key_at`. -/
def imageMetadataKeyAt (image : Option GlycinNgImage) (index : Nat) : Option CString :=
  (image.bind fun handle => handle.metadata[index]?).map (·.1)

/-- `glycin_ng_image_metadata_value`. -/
def imageMetadataValue (image : Option GlycinNgImage) (key : Option CString) : Option CString := do
  let needle ← key
  let handle ← image
  (handle.metadata.find? fun pair => pair.1 = needle).map (·.2)

section
variable {image : Image} {map : TextMap}

/-- The pairs of the handle are the entries of the map that are C strings on both sides. -/
theorem mem_metadata (h : image.metadataKeyValue = if map.isEmpty then none else some map)
    {k v : CString} : (k, v) ∈ (GlycinNgImage.wrap image).metadata ↔
      ∃ key text, map[key]? = some text ∧ CString.new key = some k ∧ CString.new text = some v := by
  cases hempty : map.isEmpty with
  | true =>
    rw [hempty, if_pos rfl] at h
    simp [GlycinNgImage.wrap, h, Std.TreeMap.getElem?_of_isEmpty hempty]
  | false =>
    rw [hempty, if_neg Bool.false_ne_true] at h
    have hpairs : (GlycinNgImage.wrap image).metadata =
        translate CString.new CString.new map.toList := by
      rw [GlycinNgImage.wrap, h]
      rfl
    simp only [hpairs, mem_translate, Std.TreeMap.mem_toList_iff_getElem?_eq_some]

/-- No key occurs twice. -/
theorem metadata_nodup (image : Image) :
    (GlycinNgImage.wrap image).metadata.Pairwise fun p p' => p.1 ≠ p'.1 := by
  unfold GlycinNgImage.wrap
  cases image.metadataKeyValue with
  | none => exact .nil
  | some map =>
    apply translate_nodup fun _ _ _ => CString.new_injective
    refine map.distinct_keys_toList.imp fun {pair pair'} hne heq => hne ?_
    rw [heq]
    exact Std.ReflCmp.compare_self

/-- The enumeration goes over the keys of the pairs. -/
theorem metadataKeyAt_eq (handle : GlycinNgImage) (i : Nat) :
    imageMetadataKeyAt (some handle) i = (handle.metadata.map (·.1))[i]? := by
  rw [List.getElem?_map]
  rfl

theorem exists_metadataKeyAt (handle : GlycinNgImage) (k : CString) :
    (∃ i < imageMetadataKeyCount (some handle), imageMetadataKeyAt (some handle) i = some k) ↔
      ∃ v, (k, v) ∈ handle.metadata := by
  have hkeys : k ∈ handle.metadata.map (·.1) ↔ ∃ v, (k, v) ∈ handle.metadata := by simp
  rw [← hkeys, List.mem_iff_getElem?]
  constructor
  · rintro ⟨i, -, hi⟩
    exact ⟨i, metadataKeyAt_eq handle i ▸ hi⟩
  · rintro ⟨i, hi⟩
    refine ⟨i, ?_, (metadataKeyAt_eq handle i).trans hi⟩
    have hlt := (List.getElem?_eq_some_iff.mp hi).1
    rwa [List.length_map] at hlt

theorem metadataKeyAt_inj {i j : Nat}
    (hi : i < imageMetadataKeyCount (some (.wrap image)))
    (heq : imageMetadataKeyAt (some (.wrap image)) i = imageMetadataKeyAt (some (.wrap image)) j) :
    i = j := by
  rw [metadataKeyAt_eq, metadataKeyAt_eq] at heq
  have hnodup : ((GlycinNgImage.wrap image).metadata.map (·.1)).Nodup :=
    List.pairwise_map.mpr (metadata_nodup image)
  exact (List.getElem?_inj (by rwa [List.length_map]) hnodup).mp heq

/-- The search finds the value paired with the key. -/
theorem metadataValue_eq_some (image : Image) (k v : CString) :
    imageMetadataValue (some (.wrap image)) (some k) = some v ↔
      (k, v) ∈ (GlycinNgImage.wrap image).metadata := by
  rw [← find?_iff_mem (metadata_nodup image)]
  rfl

end

/-! ## End to end -/

/-- The enumeration of the keys comes across `key`. -/
def Listed (handle : GlycinNgImage) (key : String) : Prop :=
  ∃ i < imageMetadataKeyCount (some handle),
    (imageMetadataKeyAt (some handle) i).map CString.bytes = some (utf8 key)

section
variable {image : Image} {chunks : List (String × Option String)}

/-- The pairs of the handle are the last values of the chunks, where both texts are free of
NUL. -/
def Reflects (image : Image) (chunks : List (String × Option String)) : Prop :=
  ∀ k v, (k, v) ∈ (GlycinNgImage.wrap image).metadata ↔
    ∃ key text, LastValue chunks key text ∧ CString.new key = some k ∧ CString.new text = some v

theorem Reflects.listed_iff (h : Reflects image chunks) (key : String) :
    Listed (.wrap image) key ↔
      NulFree key ∧ ∃ text, LastValue chunks key text ∧ NulFree text := by
  constructor
  · rintro ⟨i, hi, hkey⟩
    obtain ⟨k, hk, hbytes⟩ := Option.map_eq_some_iff.mp hkey
    obtain ⟨v, hv⟩ := (exists_metadataKeyAt _ k).mp ⟨i, hi, hk⟩
    obtain ⟨key', text, hlast, hnew, hnew'⟩ := (h k v).mp hv
    obtain ⟨hfree, hbytes'⟩ := CString.new_eq_some_iff.mp hnew
    obtain rfl := utf8_injective (hbytes'.symm.trans hbytes)
    exact ⟨hfree, text, hlast, (CString.new_eq_some_iff.mp hnew').1⟩
  · rintro ⟨hfree, text, hlast, hfree'⟩
    obtain ⟨k, hk, hbytes⟩ := CString.exists_new hfree
    obtain ⟨v, hv, -⟩ := CString.exists_new hfree'
    have hpair := (h k v).mpr ⟨key, text, hlast, hk, hv⟩
    obtain ⟨i, hi, hat⟩ := (exists_metadataKeyAt _ k).mpr ⟨v, hpair⟩
    exact ⟨i, hi, by rw [hat, Option.map_some, hbytes]⟩

/-- Every listed key is the keyword of a chunk. -/
theorem Reflects.keyAt_bytes (h : Reflects image chunks) {i : Nat}
    (hi : i < imageMetadataKeyCount (some (.wrap image))) :
    ∃ key, (imageMetadataKeyAt (some (.wrap image)) i).map CString.bytes = some (utf8 key) := by
  have hlt : i < (GlycinNgImage.wrap image).metadata.length := hi
  obtain ⟨key, text, -, hnew, -⟩ := (h _ _).mp (List.getElem_mem hlt)
  refine ⟨key, ?_⟩
  rw [metadataKeyAt_eq, List.getElem?_map, List.getElem?_eq_getElem hlt]
  exact congrArg some (CString.new_eq_some_iff.mp hnew).2

theorem Reflects.value_eq (h : Reflects image chunks) {needle : CString} {key text : String}
    (hneedle : needle.bytes = utf8 key) (hlast : LastValue chunks key text)
    (hfree : NulFree text) :
    (imageMetadataValue (some (.wrap image)) (some needle)).map CString.bytes =
      some (utf8 text) := by
  obtain ⟨v, hv, hbytes⟩ := CString.exists_new hfree
  have hkey : CString.new key = some needle :=
    CString.new_eq_some_iff.mpr ⟨(nulFree_iff key).mpr (hneedle ▸ needle.noNul), hneedle⟩
  rw [(metadataValue_eq_some image needle v).mpr ((h needle v).mpr ⟨key, text, hlast, hkey, hv⟩),
    Option.map_some, hbytes]

/-- What is not a listed key has no value. -/
theorem Reflects.value_eq_none (h : Reflects image chunks) {needle : CString}
    (hneedle : ∀ key, needle.bytes = utf8 key → ¬ Listed (.wrap image) key) :
    imageMetadataValue (some (.wrap image)) (some needle) = none := by
  by_contra hne
  obtain ⟨v, hv⟩ := Option.ne_none_iff_exists'.mp hne
  obtain ⟨key, text, hlast, hkey, htext⟩ := (h needle v).mp ((metadataValue_eq_some _ _ _).mp hv)
  obtain ⟨hfree, hbytes⟩ := CString.new_eq_some_iff.mp hkey
  refine hneedle key hbytes ((h.listed_iff key).mpr ⟨hfree, text, hlast, ?_⟩)
  exact (CString.new_eq_some_iff.mp htext).1

end

/-- Whatever text chunks a PNG file has, the accessors of the image it is loaded into list
each key once, list those whose last text arrives whole, and return that text. -/
theorem textMetadata_exact {loader : Loader} {host : Host} {bytes : Bytes} {r : Png.Reader}
    {img : Image} (hbytes : loader.source.readAll host = .ok bytes)
    (hformat : loader.chooseFormat bytes = some .png)
    (hr : host.codecs.png (memoryLimit loader.options) bytes = .ok r)
    (hload : loader.load host = .ok (.ok img)) :
    (∀ i j, i < imageMetadataKeyCount (some (.wrap img)) →
      imageMetadataKeyAt (some (.wrap img)) i = imageMetadataKeyAt (some (.wrap img)) j →
        i = j) ∧
    (∀ i < imageMetadataKeyCount (some (.wrap img)), ∃ key,
      (imageMetadataKeyAt (some (.wrap img)) i).map CString.bytes = some (utf8 key)) ∧
    (∀ key, Listed (.wrap img) key ↔
      NulFree key ∧ ∃ text, LastValue r.textChunks key text ∧ NulFree text) ∧
    (∀ (needle : CString) (key text : String), needle.bytes = utf8 key →
      LastValue r.textChunks key text → NulFree text →
        (imageMetadataValue (some (.wrap img)) (some needle)).map CString.bytes =
          some (utf8 text)) ∧
    (∀ needle : CString, (∀ key, needle.bytes = utf8 key → ¬ Listed (.wrap img) key) →
      imageMetadataValue (some (.wrap img)) (some needle) = none) ∧
    ((∀ chunk ∈ r.textChunks, chunk.2 = none) ↔ img.metadataKeyValue = none) ∧
    (img.metadataKeyValue = none → imageMetadataKeyCount (some (.wrap img)) = 0) := by
  have hmap := Loader.load_metadataKeyValue hbytes hformat hr hload
  have hreflects : Reflects img r.textChunks := by
    intro k v
    simp only [mem_metadata hmap, Png.getElem?_textMap]
  refine ⟨fun i j hi => metadataKeyAt_inj hi, fun i hi => hreflects.keyAt_bytes hi,
    hreflects.listed_iff, fun needle key text => hreflects.value_eq,
    fun needle => hreflects.value_eq_none, ?_, ?_⟩
  · rw [hmap, ← Png.textMap_isEmpty_iff]
    cases (Png.textMap r).isEmpty <;> simp
  · intro hnone
    rw [imageMetadataKeyCount, GlycinNgImage.wrap, hnone]
    rfl

/-- A grey pixel with a comment in two versions, a title that cannot be decoded and an
author with a NUL. -/
def captioned : Png.Reader where
  outputColorType := (.grayscale, .eight)
  width := 1
  height := 1
  animationControl := none
  iccProfile := none
  exifMetadata := none
  outputBufferSize := fun _ => some 1
  nextFrame := fun _ => .ok (⟨1, 1, 1⟩, [7])
  frameControl := fun _ => none
  uncompressedLatin1Text := [("Comment", "old")]
  compressedLatin1Text := [("Comment", some "new"), ("Title", none)]
  utf8Text := [("Author", some "a\x00b")]
  codingIndependentCodePoints := none

theorem textMetadata_exact_captioned : ∃ img,
    ((Loader.newBytes []).withFormatHint .png).load
      (.plain { Codecs.failing with png := fun _ _ => .ok captioned }) = .ok (.ok img) ∧
    Listed (.wrap img) "Comment" ∧ ¬ Listed (.wrap img) "Author" ∧
    (imageMetadataValue (some (.wrap img)) (CString.new "Comment")).map CString.bytes =
      some (utf8 "new") := by
  obtain ⟨img, hload⟩ : ∃ img, ((Loader.newBytes []).withFormatHint .png).load
      (.plain { Codecs.failing with png := fun _ _ => .ok captioned }) = .ok (.ok img) :=
    ⟨_, rfl⟩
  obtain ⟨-, -, hlisted, hvalue, -, -, -⟩ :=
    @textMetadata_exact _ _ [] captioned img rfl rfl rfl hload
  have hcomment : LastValue captioned.textChunks "Comment" "new" :=
    ⟨[("Comment", some "old")], [("Title", none), ("Author", some "a\x00b")], rfl, by simp⟩
  have hfree : NulFree "Comment" := by decide
  have hnew : NulFree "new" := by decide
  refine ⟨img, hload, (hlisted _).mpr ⟨hfree, _, hcomment, hnew⟩, ?_, ?_⟩
  · intro hauthor
    obtain ⟨-, text, hlast, htext⟩ := (hlisted _).mp hauthor
    obtain rfl : text = "a\x00b" := by simpa [Png.Reader.textChunks, captioned] using hlast.mem
    exact absurd htext (by decide)
  · obtain ⟨needle, hneedle, hbytes⟩ := CString.exists_new hfree
    rw [hneedle]
    exact hvalue needle _ _ hbytes hcomment hnew

end CApi

end GlycinNg
