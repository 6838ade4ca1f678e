import GlycinNg.Rust.Checked

/-! # Format detection

`sniff.rs`: the known formats, their file extensions and the signatures tried on
the leading bytes. -/
namespace GlycinNg
open Rust

/-- `sniff::KnownFormat`. -/
inductive KnownFormat where
  | png | jpeg | gif | webP | tiff | bmp | ico | tga | qoi | exr | pnm | dds | jxl | svg
  deriving DecidableEq, Repr

/-- The bytes of an ASCII literal. -/
def ascii (s : String) : Bytes := s.toList.map fun c => c.toNat.toUInt8

/-- `str::to_ascii_lowercase`. -/
def toAsciiLowercase (s : String) : String := String.ofList (s.toList.map Char.toLower)

/-- `KnownFormat::from_extension`. -/
def KnownFormat.fromExtension (ext : String) : Option KnownFormat :=
  match toAsciiLowercase ext with
  | "png" | "apng" => some .png
  | "jpg" | "jpeg" | "jpe" | "jfif" => some .jpeg
  | "gif" => some .gif
  | "webp" => some .webP
  | "tif" | "tiff" => some .tiff
  | "bmp" | "dib" => some .bmp
  | "ico" | "cur" => some .ico
  | "tga" | "icb" | "vda" | "vst" => some .tga
  | "qoi" => some .qoi
  | "exr" => some .exr
  | "pbm" | "pgm" | "ppm" | "pnm" | "pam" => some .pnm
  | "dds" => some .dds
  | "jxl" => some .jxl
  | "svg" | "svgz" => some .svg
  | _ => none

/-- `KnownFormat::from_mime_type`. -/
def KnownFormat.fromMimeType (mime : String) : Option KnownFormat :=
  match toAsciiLowercase mime with
  | "image/png" | "image/apng" => some .png
  | "image/jpeg" | "image/pjpeg" => some .jpeg
  | "image/gif" => some .gif
  | "image/webp" => some .webP
  | "image/tiff" => some .tiff
  | "image/bmp" | "image/x-bmp" => some .bmp
  | "image/x-ico" | "image/x-icon" | "image/vnd.microsoft.icon" => some .ico
  | "image/x-tga" | "image/x-targa" => some .tga
  | "image/x-qoi" | "image/qoi" => some .qoi
  | "image/x-exr" => some .exr
  | "image/x-portable-anymap" | "image/x-portable-bitmap" | "image/x-portable-graymap"
  | "image/x-portable-pixmap" => some .pnm
  | "image/vnd.ms-dds" | "image/vnd-ms.dds" | "image/x-dds" => some .dds
  | "image/jxl" => some .jxl
  | "image/svg+xml" => some .svg
  | _ => none

namespace Sniff

def startsWith (buf pre : Bytes) : Bool :=
  decide (pre.length ≤ buf.length) && buf.take pre.length == pre

theorem startsWith_iff {buf pre : Bytes} : startsWith buf pre = true ↔ pre <+: buf := by
  simp only [startsWith, Bool.and_eq_true, decide_eq_true_eq, beq_iff_eq]
  constructor
  · rintro ⟨-, h⟩
    exact h ▸ List.take_prefix _ _
  · intro h
    exact ⟨h.length_le, (List.prefix_iff_eq_take.mp h).symm⟩

/-- The four bytes the scanners skip: blank, tab, CR and LF. -/
def isSpace (b : UInt8) : Bool := b == 0x20 || b == 0x09 || b == 0x0d || b == 0x0a

def stripLeadingWhitespace (b : Bytes) : Bytes := b.dropWhile isSpace

def startsWithSvgOpenTag (b : Bytes) : Bool :=
  startsWith b (ascii "<svg") &&
    match b[4]? with
    | some c => isSpace c || c == 0x3e || c == 0x2f
    | none => false

def findSvgOpenTag (haystack : Bytes) : Bool :=
  let needle := ascii "<svg"
  if haystack.length < needle.length then false
  else
    (List.range (haystack.length - needle.length + 1)).any fun i =>
      (haystack.drop i).take needle.length == needle && startsWithSvgOpenTag (haystack.drop i)

def looksLikeSvg (buf : Bytes) : Bool :=
  let probe := buf.take 512
  let bom : Bytes := [0xef, 0xbb, 0xbf]
  let probe := if startsWith probe bom then probe.drop bom.length else probe
  let probe := stripLeadingWhitespace probe
  if startsWith probe (ascii "<?xml") then findSvgOpenTag probe
  else startsWithSvgOpenTag probe

def isPnm (buf : Bytes) : Bool :=
  match buf with
  | p :: kind :: sep :: _ => p == 0x50 && decide (0x31 ≤ kind ∧ kind ≤ 0x37) && isSpace sep
  | _ => false

/-- `sniff::detect`: the first signature that matches. TGA has none. -/
def detect (buf : Bytes) : Option KnownFormat :=
  if startsWith buf [0x89, 0x50, 0x4e, 0x47, 0x0d, 0x0a, 0x1a, 0x0a] then some .png
  else if startsWith buf [0xff, 0xd8, 0xff] then some .jpeg
  else if startsWith buf (ascii "GIF87a") || startsWith buf (ascii "GIF89a") then some .gif
  else if decide (12 ≤ buf.length) && buf.take 4 == ascii "RIFF" &&
      (buf.drop 8).take 4 == ascii "WEBP" then some .webP
  else if startsWith buf [0x49, 0x49, 0x2a, 0x00] || startsWith buf [0x4d, 0x4d, 0x00, 0x2a] then
    some .tiff
  else if startsWith buf (ascii "BM") && decide (14 ≤ buf.length) then some .bmp
  else if startsWith buf [0x00, 0x00, 0x01, 0x00] || startsWith buf [0x00, 0x00, 0x02, 0x00] then
    some .ico
  else if startsWith buf (ascii "qoif") then some .qoi
  else if startsWith buf [0x76, 0x2f, 0x31, 0x01] then some .exr
  else if isPnm buf then some .pnm
  else if startsWith buf (ascii "DDS ") then some .dds
  else if startsWith buf [0xff, 0x0a] ||
      startsWith buf ([0x00, 0x00, 0x00, 0x0c] ++ ascii "JXL " ++ [0x0d, 0x0a, 0x87, 0x0a]) then
    some .jxl
  else if looksLikeSvg buf then some .svg
  else none

end Sniff

end GlycinNg
