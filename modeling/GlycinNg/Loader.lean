import GlycinNg.Formats
import GlycinNg.Metadata

/-! # The loader

`loader.rs`. A load reads the source, chooses a format, runs the decoder of the
format on a worker and then, back on the caller's thread, the orientation stage.
What the outside answers (files, the kernel, the codec crates, a panic inside
one of them) is a `Host`. -/
namespace GlycinNg
open Rust

/-- Image source captured by the loader; a reader is what `read_to_end` answers. -/
inductive Source where
  | path (path : String)
  | bytes (bytes : Bytes)
  | reader (readToEnd : Except String Bytes)

/-- `loader::Loader`. -/
structure Loader where
  source : Source
  extensionHint : Option String
  formatHint : Option KnownFormat
  limits : Limits
  sandbox : SandboxSelector
  applyTransformations : Bool
  renderSizeHint : Option (UInt32 × UInt32)

/-- What the world around one load answers. -/
structure Host where
  readFile : String → Except String Bytes
  kernel : Sandbox.Kernel
  codecs : Codecs
  /-- The payload of a panic on the worker, if a codec panics. -/
  workerPanic : Option Sandbox.PanicPayload

/-- A kernel without sandbox layers. -/
def Sandbox.Kernel.plain : Sandbox.Kernel where
  spawnError := none
  landlockApply := .disabled
  seccompApply := .disabled
  setrlimitAs := true
  setrlimitCpu := true

/-- A host without files, on which nothing goes wrong. -/
def Host.plain (codecs : Codecs) : Host where
  readFile := fun _ => .error "No such file or directory (os error 2)"
  kernel := .plain
  codecs := codecs
  workerPanic := none

namespace Source

/-- `Source::read_all`. -/
def readAll (source : Source) (host : Host) : Except String Bytes :=
  match source with
  | .path p => host.readFile p
  | .bytes b => .ok b
  | .reader r => r

end Source

/-- `Path::file_name`: the last component, unless it is `..`. -/
def pathFileName (path : List Char) : Option (List Char) :=
  let components := (path.splitOn '/').filter fun c => c ≠ [] ∧ c ≠ ['.']
  components.getLast?.filter fun c => c ≠ ['.', '.']

/-- `Path::extension`: what follows the last dot of the file name, unless that
dot is its first character. -/
def pathExtension (path : List Char) : Option (List Char) := do
  let name ← pathFileName path
  let parts := name.splitOn '.'
  if parts.length < 2 ∨ parts.dropLast = [[]] then none else parts.getLast?

namespace Loader

def new (source : Source) (extensionHint : Option String) : Loader where
  source := source
  extensionHint := extensionHint
  formatHint := none
  limits := .default
  sandbox := .default
  applyTransformations := true
  renderSizeHint := none

def newPath (path : String) : Loader :=
  new (.path path)
    ((pathExtension path.toList).map fun ext => toAsciiLowercase (String.ofList ext))

def newBytes (bytes : Bytes) : Loader := new (.bytes bytes) none

def newReader (readToEnd : Except String Bytes) : Loader := new (.reader readToEnd) none

variable (loader : Loader)

def withApplyTransformations (apply : Bool) : Loader :=
  { loader with applyTransformations := apply }

def withFormatHint (format : KnownFormat) : Loader := { loader with formatHint := some format }

/-- The format of a decode: the caller's hint, else the signature, else the extension. -/
def chooseFormat (bytes : Bytes) : Option KnownFormat :=
  (loader.formatHint.or (Sniff.detect bytes)).or
    (loader.extensionHint.bind KnownFormat.fromExtension)

def options : DecodeOptions where
  limits := loader.limits
  applyTransformations := loader.applyTransformations
  renderSizeHint := loader.renderSizeHint

/-- `Loader::load` up to the answer of the worker. -/
def decoded (host : Host) : Except Error (Image × SandboxPosture) := do
  let bytes ← (loader.source.readAll host).mapError .io
  let format ← okOr (loader.chooseFormat bytes) .unsupportedFormat
  let work := match host.workerPanic with
    | some payload => .error payload
    | none => .ok (dispatch host.codecs format bytes loader.options).result
  Sandbox.runInWorker host.kernel loader.sandbox loader.limits work

/-- `Loader::load`. -/
def load (host : Host) : Checked (Except Error Image) :=
  match loader.decoded host with
  | .error e => return .error e
  | .ok (image, posture) => do
    let image ← Metadata.applyOrientationIfPresent image loader.applyTransformations
    return .ok (image.setSandboxPosture posture)

end Loader

/-- No decoder looks at `apply_transformations`. -/
theorem dispatch_applyTransformations (c : Codecs) (format : KnownFormat) (bytes : Bytes)
    (opts : DecodeOptions) (apply : Bool) :
    dispatch c format bytes { opts with applyTransformations := apply } =
      dispatch c format bytes opts := by
  cases format <;> rfl

namespace Loader
variable {host : Host} {loader : Loader}

/-- The worker's answer is what the decoder of the chosen format returned. -/
theorem decoded_ok {base : Image} {posture : SandboxPosture}
    (h : loader.decoded host = .ok (base, posture)) :
    ∃ bytes format, loader.source.readAll host = .ok bytes ∧
      loader.chooseFormat bytes = some format ∧
      (dispatch host.codecs format bytes loader.options).result = .ok base := by
  obtain ⟨bytes, hbytes, h⟩ := bind_eq_ok.mp h
  obtain ⟨format, hformat, h⟩ := bind_eq_ok.mp h
  rw [mapError_eq_ok] at hbytes
  rw [okOr_eq_ok] at hformat
  refine ⟨bytes, format, hbytes, hformat, ?_⟩
  have hwork := (Sandbox.runInWorker_ok h).1
  cases hpanic : host.workerPanic with
  | some payload =>
    rw [hpanic] at hwork
    cases hwork
  | none =>
    rw [hpanic] at hwork
    exact Except.ok.inj hwork

/-- The answer of the worker does not depend on the orientation mode. -/
theorem decoded_withApplyTransformations (apply : Bool) :
    (loader.withApplyTransformations apply).decoded host = loader.decoded host := by
  have hdispatch := fun format bytes =>
    dispatch_applyTransformations host.codecs format bytes loader.options apply
  simp only [decoded, withApplyTransformations, options] at hdispatch ⊢
  simp only [hdispatch]
  rfl

/-- A load that returns is the orientation stage on what the worker answered. -/
theorem load_ok {img : Image} (h : loader.load host = .ok (.ok img)) :
    ∃ base posture oriented, loader.decoded host = .ok (base, posture) ∧
      Metadata.applyOrientationIfPresent base loader.applyTransformations = .ok oriented ∧
      img = oriented.setSandboxPosture posture := by
  rw [load] at h
  cases hdecoded : loader.decoded host with
  | error e =>
    rw [hdecoded] at h
    cases h
  | ok answer =>
    obtain ⟨base, posture⟩ := answer
    rw [hdecoded] at h
    obtain ⟨oriented, horiented, h⟩ := bind_eq_ok.mp h
    cases h
    exact ⟨base, posture, oriented, rfl, horiented, rfl⟩

theorem load_of_decoded {base : Image} {posture : SandboxPosture}
    (h : loader.decoded host = .ok (base, posture)) :
    loader.load host = do
      let image ← Metadata.applyOrientationIfPresent base loader.applyTransformations
      return .ok (image.setSandboxPosture posture) := by
  rw [load, h]

end Loader

/-- The extension is what follows the last dot. -/
example : (Loader.newPath "/tmp/archive.tar/Photo.JPG").extensionHint = some "jpg" := by decide

example : (Loader.newPath "/tmp/.hidden").extensionHint = none := by decide

end GlycinNg
