import GlycinNg.Shim.Client
import GlycinNg.Shim.Saving

/-! # Media types

`mime.rs` and `mimelist.rs`. The shim tells a client the media types it can load, the type of
an image it has loaded, and takes a type to make a creator for. Three tables in two crates are
behind that; here they say the same (`media_types_agree`). -/
namespace GlycinNg.Shim
open Rust CApi

/-- `mime::from_format_name`. -/
def fromFormatName (name : String) : Option String :=
  match name with
  | "png" => some "image/png"
  | "jpeg" => some "image/jpeg"
  | "gif" => some "image/gif"
  | "webp" => some "image/webp"
  | "tiff" => some "image/tiff"
  | "bmp" => some "image/bmp"
  | "ico" => some "image/vnd.microsoft.icon"
  | "tga" => some "image/x-tga"
  | "qoi" => some "image/qoi"
  | "exr" => some "image/x-exr"
  | "pnm" => some "image/x-portable-anymap"
  | "dds" => some "image/vnd.ms-dds"
  | "jxl" => some "image/jxl"
  | "svg" => some "image/svg+xml"
  | _ => none

/-- `SUPPORTED_MIME_TYPES`. -/
def supportedMimeTypes : List String := [
  "image/png",
  "image/apng",
  "image/jpeg",
  "image/pjpeg",
  "image/gif",
  "image/webp",
  "image/tiff",
  "image/bmp",
  "image/x-bmp",
  "image/x-ico",
  "image/x-icon",
  "image/vnd.microsoft.icon",
  "image/x-tga",
  "image/x-targa",
  "image/x-qoi",
  "image/qoi",
  "image/x-exr",
  "image/x-portable-anymap",
  "image/x-portable-bitmap",
  "image/x-portable-graymap",
  "image/x-portable-pixmap",
  "image/vnd.ms-dds",
  "image/vnd-ms.dds",
  "image/x-dds",
  "image/jxl",
  "image/svg+xml"]

/-- `gly_loader_get_mime_types`: the strings before the NULL at the end, without their NUL. No
literal has a NUL inside, so `CString::new` takes them all (`nulFree_supported`). -/
def loaderGetMimeTypes : List Bytes := supportedMimeTypes.map utf8

/-- `gly_image_get_mime_type`. `gly_loader_load` looks the type up once, under the name of an
image that stays the same. -/
def ImageState.mimeType (img : ImageState) : Option Bytes :=
  ((fromFormatName ((imageFormatName img.inner).getD "")).bind CString.new).map CString.bytes

/-! ## The tables -/

theorem nulFree_supported {text : String} (h : text ∈ supportedMimeTypes) : NulFree text := by
  have hall : ∀ text ∈ supportedMimeTypes, NulFree text := by decide
  exact hall text h

theorem mem_loaderGetMimeTypes {text : String} :
    utf8 text ∈ loaderGetMimeTypes ↔ text ∈ supportedMimeTypes := by
  rw [loaderGetMimeTypes, List.mem_map]
  constructor
  · rintro ⟨text', hmem, heq⟩
    rwa [← utf8_injective heq]
  · exact fun hmem => ⟨text, hmem, rfl⟩

/-- The engine knows the types of the list, in any case, and no others. -/
theorem fromMimeType_isSome_iff (text : String) :
    (KnownFormat.fromMimeType text).isSome = true ↔
      toAsciiLowercase text ∈ supportedMimeTypes := by
  unfold KnownFormat.fromMimeType
  split <;> simp_all [supportedMimeTypes]

/-- The name of a format leads to a type that leads back to the format. -/
theorem fromFormatName_name (format : KnownFormat) :
    ∃ text ∈ supportedMimeTypes, fromFormatName format.name = some text ∧
      KnownFormat.fromMimeType text = some format := by
  cases format
  all_goals exact ⟨_, by decide, rfl, by decide⟩

/-! ## Creators and images -/

/-- Whatever came before it, `gly_creator_new` makes a creator exactly for the types of formats
that have an encoder. -/
theorem creator_new_iff (mime : Bytes) (s : Session) :
    (∃ creator s', (Creator.new (some mime)).run s = .ok (.ok creator, s')) ↔
      ∃ format, (toStr mime).bind KnownFormat.fromMimeType = some format ∧
        Encoder.isSupported format = true := by
  constructor
  · rintro ⟨creator, s', hrun⟩
    obtain ⟨text, format, htext, hformat, hsupported, -⟩ := Creator.new_queued hrun
    exact ⟨format, Option.bind_eq_some_iff.mpr ⟨text, htext, hformat⟩, hsupported⟩
  · rintro ⟨format, hmime, hsupported⟩
    obtain ⟨text, htext, hformat⟩ := Option.bind_eq_some_iff.mp hmime
    obtain ⟨creator, s', hrun, -⟩ := Creator.ready_new htext hformat hsupported s
    exact ⟨creator, s', hrun⟩

/-- The image behind a view names the format that its bytes were taken for. -/
theorem Backed.named {world : Host → Prop} {bytes : Bytes} {img : ImageState}
    (h : Backed world bytes img) :
    ∃ format, Sniff.detect bytes = some format ∧ img.inner.formatName = format.name := by
  obtain ⟨apply, host, -, hload⟩ := h.decoded
  obtain ⟨read, format, hread, hformat, hname⟩ := Loader.load_named hload
  cases hread
  refine ⟨format, ?_, hname⟩
  rw [← hformat, Loader.chooseFormat]
  simp [engineLoader, Loader.newBytes, Loader.new]

/-- The name of a format is in the table of the C interface. -/
theorem imageFormatName_of_named {image : Image} {format : KnownFormat}
    (h : image.formatName = format.name) : imageFormatName image = some format.name := by
  rw [imageFormatName, h, if_pos]
  cases format <;> decide

/-- In whatever state a client has brought it, an image reports a media type. It is one of the
types the shim advertises, and these are, for every text, what the engine knows. Read back, it
is the format the bytes were taken for; and a creator can be made for it exactly when that
format has an encoder. -/
theorem media_types_agree {world : Host → Prop} {bytes : Bytes} {img : ImageState}
    (h : Viewing world bytes img) :
    ∃ format mime, Sniff.detect bytes = some format ∧ img.mimeType = some mime ∧
      mime ∈ loaderGetMimeTypes ∧ (toStr mime).bind KnownFormat.fromMimeType = some format ∧
      (∀ text, (KnownFormat.fromMimeType text).isSome = true ↔
        utf8 (toAsciiLowercase text) ∈ loaderGetMimeTypes) ∧
      ∀ s, (∃ creator s', (Creator.new (some mime)).run s = .ok (.ok creator, s')) ↔
        Encoder.isSupported format = true := by
  obtain ⟨format, hdetect, hname⟩ := h.backed.named
  obtain ⟨text, hmem, htext, hback⟩ := fromFormatName_name format
  have hmime : (toStr (utf8 text)).bind KnownFormat.fromMimeType = some format := by
    rw [toStr_utf8, Option.bind_some, hback]
  refine ⟨format, utf8 text, hdetect, ?_, mem_loaderGetMimeTypes.mpr hmem, hmime, ?_, ?_⟩
  · obtain ⟨c, hnew, hbytes⟩ := CString.exists_new (nulFree_supported hmem)
    rw [ImageState.mimeType, imageFormatName_of_named hname, Option.getD_some, htext,
      Option.bind_some, hnew, Option.map_some, hbytes]
  · intro text'
    rw [fromMimeType_isSome_iff, mem_loaderGetMimeTypes]
  · intro s
    rw [creator_new_iff, hmime]
    simp

/-- The grey image is of a type that can be saved. -/
theorem media_types_agree_greyPixel :
    ∃ s' img, greyLoader.load (.plain greyPixel) = .ok (s', .ok img) ∧
      ∃ mime ∈ loaderGetMimeTypes, img.mimeType = some mime ∧
        ∃ creator s', (Creator.new (some mime)).run .start = .ok (.ok creator, s') := by
  have himg : ∃ s' img, greyLoader.load (.plain greyPixel) = .ok (s', .ok img) ∧
      Viewing (· = .plain greyPixel) [0x89, 0x50, 0x4e, 0x47, 0x0d, 0x0a, 0x1a, 0x0a] img :=
    ⟨_, _, rfl, .loaded .new rfl rfl⟩
  obtain ⟨s', img, hload, hview⟩ := himg
  obtain ⟨format, mime, hdetect, hmime, hmem, -, -, hcreator⟩ := media_types_agree hview
  obtain rfl : KnownFormat.png = format := Option.some.inj hdetect
  exact ⟨s', img, hload, mime, hmem, hmime, (hcreator .start).mpr rfl⟩

end GlycinNg.Shim
