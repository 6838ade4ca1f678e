import GlycinNg.Loader
import GlycinNg.Rust.Bytes
import GlycinNg.Sniff.Signatures

/-! # TGA files and their extension

TGA has no signature: a `.tga` file reaches its decoder when no signature of
`sniff::detect` matches and the extension decides. The second and third byte of a
header keep it clear of all signatures but one: the first four bytes of an
uncompressed picture without id and colour map can be those of an icon or a
cursor (`detect_tga`). -/
namespace GlycinNg
open Rust Sniff

/-- The 18 bytes in front of every TGA file, well formed. -/
structure TgaHeader where
  idLength : UInt8
  colorMapType : UInt8
  imageType : UInt8
  colorMapFirst : UInt16
  colorMapLength : UInt16
  colorMapDepth : UInt8
  xOrigin : UInt16
  yOrigin : UInt16
  width : UInt16
  height : UInt16
  pixelDepth : UInt8
  descriptor : UInt8
  colorMapType_mem : colorMapType ∈ [0, 1]
  imageType_mem : imageType ∈ [1, 2, 3, 9, 10, 11]

namespace TgaHeader

/-- The header as it stands in the file, in little endian. -/
def encode (h : TgaHeader) : Bytes :=
  [h.idLength, h.colorMapType, h.imageType] ++ u16Bytes false h.colorMapFirst ++
    u16Bytes false h.colorMapLength ++ [h.colorMapDepth] ++ u16Bytes false h.xOrigin ++
    u16Bytes false h.yOrigin ++ u16Bytes false h.width ++ u16Bytes false h.height ++
    [h.pixelDepth, h.descriptor]

example (h : TgaHeader) : h.encode.length = 18 := by simp [encode]

/-- The header begins like an icon or a cursor: no id, no colour map, an
uncompressed picture, and a first colour map entry whose low byte is 0. -/
def LooksLikeIcon (h : TgaHeader) : Prop :=
  h.idLength = 0 ∧ h.colorMapType = 0 ∧ (h.imageType = 1 ∨ h.imageType = 2) ∧
    UInt8.ofNat h.colorMapFirst.toNat = 0

instance (h : TgaHeader) : Decidable h.LooksLikeIcon :=
  inferInstanceAs (Decidable (_ ∧ _ ∧ _ ∧ _))

end TgaHeader

/-! ## Signatures -/

namespace Sniff

/-- A signature that differs in the second byte does not match. -/
theorem startsWith_eq_false {a b p q : UInt8} {rest pre : Bytes} (h : b ≠ q) :
    startsWith (a :: b :: rest) (p :: q :: pre) = false := by
  simp [startsWith, h]

/-- A blank in front does not help: neither tag opens with a byte below 2. -/
theorem looksLikeSvg_eq_false {a b : UInt8} {rest : Bytes} (hb : b = 0 ∨ b = 1) :
    looksLikeSvg (a :: b :: rest) = false := by
  rw [← Bool.not_eq_true, looksLikeSvg_eq]
  intro h
  obtain ⟨c, r, htext, hc⟩ := svgRoot_head h
  have hbom : ¬ startsWith (a :: b :: rest.take 510) [0xef, 0xbb, 0xbf] = true := by
    rw [startsWith_eq_false (by rcases hb with rfl | rfl <;> decide)]
    decide
  have hspace : ¬ isSpace b = true := by rcases hb with rfl | rfl <;> decide
  rw [show (a :: b :: rest).take 512 = a :: b :: rest.take 510 from rfl, svgText, if_neg hbom,
    stripLeadingWhitespace, List.dropWhile_cons] at htext
  split at htext
  · rw [List.dropWhile_cons, if_neg hspace] at htext
    obtain ⟨rfl, -⟩ := List.cons.inj htext
    exact absurd hb (by decide)
  · cases htext
    rcases hc with rfl | rfl <;> exact absurd hb (by decide)

/-- Of all signatures only that of icons and cursors agrees with a TGA header. -/
theorem detect_header {a b c d : UInt8} {rest : Bytes} (hb : b ∈ [0, 1])
    (hc : c ∈ [1, 2, 3, 9, 10, 11]) :
    detect (a :: b :: c :: d :: rest) =
      if a = 0 ∧ b = 0 ∧ (c = 1 ∨ c = 2) ∧ d = 0 then some .ico else none := by
  have hb' : b = 0 ∨ b = 1 := by simpa using hb
  -- the container of JPEG XL has a third byte of 0
  have hc' : c ≠ 0 := by
    rintro rfl
    exact absurd hc (by decide)
  have hicon : (a = 0 ∧ c = 1 ∧ d = 0 ∨ a = 0 ∧ c = 2 ∧ d = 0) ↔
      a = 0 ∧ (c = 1 ∨ c = 2) ∧ d = 0 := by tauto
  unfold detect
  rw [looksLikeSvg_eq_false hb']
  rcases hb' with rfl | rfl
  · simp [startsWith, ascii, isPnm, hc', hicon]
  · simp [startsWith, ascii, isPnm]

/-- Sniffing a TGA file finds nothing, or an icon. -/
theorem detect_tga (h : TgaHeader) (payload : Bytes) :
    detect (h.encode ++ payload) = if h.LooksLikeIcon then some .ico else none := by
  simp only [TgaHeader.encode, u16Bytes, Bool.false_eq_true, if_false, List.cons_append,
    List.nil_append]
  exact detect_header h.colorMapType_mem h.imageType_mem

end Sniff

/-! ## Loaders of a path -/

/-- The extensions of TGA files. -/
def tgaExtensions : List String := ["tga", "icb", "vda", "vst"]

/-- The extension is lowered twice, once by the loader and once by the table. -/
theorem fromExtension_tga {ext : String} (h : ext ∈ tgaExtensions) :
    KnownFormat.fromExtension ext = some .tga := by
  simp only [tgaExtensions, List.mem_cons, List.not_mem_nil, or_false] at h
  rcases h with rfl | rfl | rfl | rfl <;> decide

/-- A loader of a path keeps the extension, lowered. -/
theorem newPath_extensionHint {path : String} {ext : List Char}
    (h : pathExtension path.toList = some ext) :
    (Loader.newPath path).extensionHint = some (toAsciiLowercase (String.ofList ext)) := by
  show (pathExtension path.toList).map _ = _
  rw [h]
  rfl

/-- A loader of a path with a TGA extension, in any letter case, and without a
hint decodes a TGA file as TGA, and sniffs nothing in it, unless its header looks
like that of an icon. -/
theorem tga_resolves_iff (path : String) (loader : Loader) (ext : List Char) (h : TgaHeader)
    (payload : Bytes) (hnew : loader.extensionHint = (Loader.newPath path).extensionHint)
    (hhint : loader.formatHint = none) (hext : pathExtension path.toList = some ext)
    (htga : toAsciiLowercase (String.ofList ext) ∈ tgaExtensions) :
    (loader.chooseFormat (h.encode ++ payload) = some .tga ↔ ¬ h.LooksLikeIcon) ∧
      (Sniff.detect (h.encode ++ payload) = none ↔ ¬ h.LooksLikeIcon) := by
  have hextension : loader.extensionHint.bind KnownFormat.fromExtension = some .tga := by
    rw [hnew, newPath_extensionHint hext, Option.bind_some]
    exact fromExtension_tga htga
  unfold Loader.chooseFormat
  rw [hhint, hextension, Sniff.detect_tga]
  by_cases hicon : h.LooksLikeIcon <;> simp [hicon]

/-- The header of an uncompressed true-colour picture, all other fields 0. -/
def plainHeader : TgaHeader where
  idLength := 0
  colorMapType := 0
  imageType := 2
  colorMapFirst := 0
  colorMapLength := 0
  colorMapDepth := 0
  xOrigin := 0
  yOrigin := 0
  width := 1
  height := 1
  pixelDepth := 24
  descriptor := 0
  colorMapType_mem := by decide
  imageType_mem := by decide

theorem tga_resolves_iff_plain :
    ((Loader.newPath "dummy.TGA").chooseFormat (plainHeader.encode ++ [0, 0, 0]) = some .tga ↔
        ¬ plainHeader.LooksLikeIcon) ∧
      (Sniff.detect (plainHeader.encode ++ [0, 0, 0]) = none ↔ ¬ plainHeader.LooksLikeIcon) :=
  tga_resolves_iff "dummy.TGA" (Loader.newPath "dummy.TGA") ['T', 'G', 'A'] plainHeader [0, 0, 0]
    rfl rfl (by decide) (by decide)

/-- The plainest TGA file of one pixel is handed to the icon decoder. -/
theorem plainTga_is_icon :
    (Loader.newPath "dummy.tga").chooseFormat (plainHeader.encode ++ [0, 0, 0]) = some .ico ∧
      Sniff.detect (plainHeader.encode ++ [0, 0, 0]) = some .ico := by
  decide

end GlycinNg
