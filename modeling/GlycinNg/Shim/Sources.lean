import GlycinNg.Rust.Stream
import GlycinNg.Rust.Utf8
import GlycinNg.Shim.SaveLoad

/-! # Where a loader's bytes come from

`gly_loader_new` reads a file, by its path or else through a stream of GIO,
`gly_loader_new_for_stream` a stream and `gly_loader_new_for_bytes` a block of memory. A loader is
made exactly where there is something to be read to its end, and of that alone
(`loaderFrom_iff`). The name of a file is not passed on to the engine, which would choose a
format by it (`file_loads_as_path`). -/
namespace GlycinNg.Shim
open Rust CApi

/-! ## Streams and files -/

/-- A `GInputStream` that keeps to what `g_input_stream_read` promises: with `next`, the answer
for the state it is in and the size of the buffer. -/
structure GInputStream where
  State : Type
  read : ReadInto State UInt8
  next : State → Nat → Answer State UInt8
  fills : ∀ s chunk, (next s chunk.length).Fills chunk.length (read s chunk)
  now : State

/-- A `GFile`: `g_file_get_path`, NULL where it has none, and `g_file_read`, NULL on an error. -/
structure GFile where
  path : Option Bytes
  read : Option GInputStream

/-- The size of the buffer of `read_input_stream`. -/
def chunkSize : Nat := 65536

/-! ## Loaders -/

/-- `read_input_stream`, for as many reads as `fuel`. -/
def readInputStream (fuel : Nat) (stream : GInputStream) : Option (Checked (Option Bytes)) :=
  readToEnd stream.read fuel stream.now [] (List.replicate chunkSize 0)

/-- `gly_loader_new_for_bytes`; the data of an empty `GBytes` may be NULL. -/
def loaderNewForBytes : Option Bytes → Option LoaderState
  | none => none
  | some bytes => if bytes = [] then none else some (.newFromBytes bytes)

/-- `gly_loader_new_for_stream`. -/
def loaderNewForStream (fuel : Nat) : Option GInputStream → Option (Checked (Option LoaderState))
  | none => some (.ok none)
  | some stream =>
    (readInputStream fuel stream).map fun read => read.map fun bytes =>
      bytes.map LoaderState.newFromBytes

/-- `gly_loader_new`. -/
def loaderNew (host : Host) (fuel : Nat) : Option GFile → Option (Checked (Option LoaderState))
  | none => some (.ok none)
  | some file =>
    match file.path.map fun path => host.readFile (toStringLossy path) with
    | some (.ok bytes) => some (.ok (some (.newFromBytes bytes)))
    | _ => loaderNewForStream fuel file.read

/-- What a loader can be made from; NULL is `none`. -/
inductive Source where
  | file (file : Option GFile)
  | bytes (bytes : Option Bytes)
  | stream (stream : Option GInputStream)

def loaderFrom (host : Host) (fuel : Nat) : Source → Option (Checked (Option LoaderState))
  | .file file => loaderNew host fuel file
  | .bytes bytes => some (.ok (loaderNewForBytes bytes))
  | .stream stream => loaderNewForStream fuel stream

/-! ## What there is to be read -/

/-- The stream hands out `bytes`, in whatever pieces, and then ends or fails. -/
def GInputStream.Holds (stream : GInputStream) (bytes : Bytes) (ok : Bool) : Prop :=
  Rust.Holds (stream.next · chunkSize) stream.now bytes ok

/-- The contents of a stream, unless reading it fails. -/
inductive StreamContents : Option GInputStream → Option Bytes → Prop
  | null : StreamContents none none
  | ended {stream : GInputStream} {bytes : Bytes} (h : stream.Holds bytes true) :
      StreamContents (some stream) (some bytes)
  | failed {stream : GInputStream} {bytes : Bytes} (h : stream.Holds bytes false) :
      StreamContents (some stream) none

/-- The file is there to be read by its path. -/
def GFile.ReadsAs (host : Host) (file : GFile) (bytes : Bytes) : Prop :=
  ∃ path, file.path = some path ∧ host.readFile (toStringLossy path) = .ok bytes

/-- What a source holds, if it can be read to its end. -/
inductive Contents (host : Host) : Source → Option Bytes → Prop
  | null : Contents host (.file none) none
  | path {file : GFile} {bytes : Bytes} (h : file.ReadsAs host bytes) :
      Contents host (.file (some file)) (some bytes)
  | read {file : GFile} {contents : Option Bytes} (h : ∀ bytes, ¬ file.ReadsAs host bytes)
      (hread : StreamContents file.read contents) : Contents host (.file (some file)) contents
  | noBytes : Contents host (.bytes none) none
  | empty : Contents host (.bytes (some [])) none
  | bytes {bytes : Bytes} (h : bytes ≠ []) : Contents host (.bytes (some bytes)) (some bytes)
  | stream {stream : Option GInputStream} {contents : Option Bytes}
      (h : StreamContents stream contents) : Contents host (.stream stream) contents

section
variable {host : Host}

theorem readInputStream_iff (stream : GInputStream) (r : Checked (Option Bytes)) :
    (∃ fuel, readInputStream fuel stream = some r) ↔
      ∃ bytes ok, stream.Holds bytes ok ∧ r = .ok (if ok then some bytes else none) := by
  have hdoc : ∀ s chunk, chunk.length = chunkSize →
      (stream.next s chunkSize).Fills chunkSize (stream.read s chunk) := by
    intro s chunk hlength
    have hfills := stream.fills s chunk
    rwa [hlength] at hfills
  exact readToEnd_iff hdoc List.length_replicate r

theorem loaderNewForStream_iff (stream : Option GInputStream)
    (r : Checked (Option LoaderState)) : (∃ fuel, loaderNewForStream fuel stream = some r) ↔
      ∃ contents, StreamContents stream contents ∧
        r = .ok (contents.map LoaderState.newFromBytes) := by
  cases stream with
  | none =>
    constructor
    · rintro ⟨fuel, h⟩
      cases h
      exact ⟨none, .null, rfl⟩
    · rintro ⟨contents, h, rfl⟩
      cases h
      exact ⟨0, rfl⟩
  | some stream =>
    constructor
    · rintro ⟨fuel, h⟩
      obtain ⟨read, hread, rfl⟩ := Option.map_eq_some_iff.mp h
      obtain ⟨bytes, ok, hholds, rfl⟩ := (readInputStream_iff stream read).mp ⟨fuel, hread⟩
      cases ok with
      | true => exact ⟨some bytes, .ended hholds, rfl⟩
      | false => exact ⟨none, .failed hholds, rfl⟩
    · rintro ⟨contents, h, rfl⟩
      cases h with
      | ended h =>
        obtain ⟨fuel, hread⟩ := (readInputStream_iff stream _).mpr ⟨_, true, h, rfl⟩
        exact ⟨fuel, Option.map_eq_some_iff.mpr ⟨_, hread, rfl⟩⟩
      | failed h =>
        obtain ⟨fuel, hread⟩ := (readInputStream_iff stream _).mpr ⟨_, false, h, rfl⟩
        exact ⟨fuel, Option.map_eq_some_iff.mpr ⟨_, hread, rfl⟩⟩

/-- A file that cannot be read by its path is read as a stream. -/
theorem loaderNew_of_unread {file : GFile} (h : ∀ bytes, ¬ file.ReadsAs host bytes) (fuel : Nat) :
    loaderNew host fuel (some file) = loaderNewForStream fuel file.read := by
  rw [loaderNew]
  cases hpath : file.path with
  | none => rfl
  | some path =>
    rw [Option.map_some]
    cases hread : host.readFile (toStringLossy path) with
    | error e => rfl
    | ok bytes => exact absurd ⟨path, hpath, hread⟩ (h bytes)

theorem loaderNew_of_readsAs {file : GFile} {bytes : Bytes} (h : file.ReadsAs host bytes)
    (fuel : Nat) : loaderNew host fuel (some file) = some (.ok (some (.newFromBytes bytes))) := by
  obtain ⟨path, hpath, hread⟩ := h
  rw [loaderNew, hpath, Option.map_some, hread]

/-- A source holds one thing. -/
theorem StreamContents.unique {stream : Option GInputStream} {contents contents' : Option Bytes}
    (h : StreamContents stream contents) (h' : StreamContents stream contents') :
    contents = contents' := by
  cases h with
  | null => cases h'; rfl
  | ended h =>
    cases h' with
    | ended h' =>
      obtain ⟨rfl, -⟩ := Holds.unique h h'
      rfl
    | failed h' =>
      obtain ⟨-, hok⟩ := Holds.unique h h'
      cases hok
  | failed h =>
    cases h' with
    | ended h' =>
      obtain ⟨-, hok⟩ := Holds.unique h h'
      cases hok
    | failed h' => rfl

theorem GFile.ReadsAs.unique {file : GFile} {bytes bytes' : Bytes} (h : file.ReadsAs host bytes)
    (h' : file.ReadsAs host bytes') : bytes = bytes' := by
  obtain ⟨path, hpath, hread⟩ := h
  obtain ⟨path', hpath', hread'⟩ := h'
  obtain rfl := Option.some.inj (hpath.symm.trans hpath')
  exact Except.ok.inj (hread.symm.trans hread')

theorem Contents.unique {source : Source} {contents contents' : Option Bytes}
    (h : Contents host source contents) (h' : Contents host source contents') :
    contents = contents' := by
  cases h with
  | null => cases h'; rfl
  | path h =>
    cases h' with
    | path h' => rw [h.unique h']
    | read h' => exact absurd h (h' _)
  | read h hread =>
    cases h' with
    | path h' => exact absurd h' (h _)
    | read _ hread' => exact hread.unique hread'
  | noBytes => cases h'; rfl
  | empty =>
    cases h' with
    | empty => rfl
    | bytes h' => exact absurd rfl h'
  | bytes h =>
    cases h' with
    | empty => exact absurd rfl h
    | bytes _ => rfl
  | stream h =>
    cases h' with
    | stream h' => exact h.unique h'

/-- What a source holds comes into a loader. -/
theorem Contents.exists_loaderFrom {source : Source} {contents : Option Bytes}
    (h : Contents host source contents) : ∃ fuel, loaderFrom host fuel source =
      some (.ok (contents.map LoaderState.newFromBytes)) := by
  cases h with
  | null => exact ⟨0, rfl⟩
  | path h => exact ⟨0, loaderNew_of_readsAs h 0⟩
  | read h hread =>
    obtain ⟨fuel, hfuel⟩ := (loaderNewForStream_iff _ _).mpr ⟨_, hread, rfl⟩
    exact ⟨fuel, (loaderNew_of_unread h fuel).trans hfuel⟩
  | noBytes => exact ⟨0, rfl⟩
  | empty => exact ⟨0, rfl⟩
  | bytes h => exact ⟨0, by rw [loaderFrom, loaderNewForBytes, if_neg h]; rfl⟩
  | stream h => exact (loaderNewForStream_iff _ _).mpr ⟨_, h, rfl⟩

/-- What has been read is what the source holds. -/
theorem exists_contents {source : Source} {fuel : Nat} {r : Checked (Option LoaderState)}
    (h : loaderFrom host fuel source = some r) : ∃ contents, Contents host source contents ∧
      r = .ok (contents.map LoaderState.newFromBytes) := by
  cases source with
  | bytes bytes =>
    cases h
    cases bytes with
    | none => exact ⟨none, .noBytes, rfl⟩
    | some bytes =>
      by_cases hbytes : bytes = []
      · subst hbytes
        exact ⟨none, .empty, rfl⟩
      · exact ⟨some bytes, .bytes hbytes, by rw [loaderNewForBytes, if_neg hbytes]; rfl⟩
  | stream stream =>
    obtain ⟨contents, hcontents, hr⟩ := (loaderNewForStream_iff stream r).mp ⟨fuel, h⟩
    exact ⟨contents, .stream hcontents, hr⟩
  | file file =>
    cases file with
    | none =>
      cases h
      exact ⟨none, .null, rfl⟩
    | some file =>
      simp only [loaderFrom] at h
      by_cases hreads : ∃ bytes, file.ReadsAs host bytes
      · obtain ⟨bytes, hbytes⟩ := hreads
        rw [loaderNew_of_readsAs hbytes] at h
        cases h
        exact ⟨some bytes, .path hbytes, rfl⟩
      · have hunread : ∀ bytes, ¬ file.ReadsAs host bytes :=
          fun bytes hbytes => hreads ⟨bytes, hbytes⟩
        rw [loaderNew_of_unread hunread] at h
        obtain ⟨contents, hcontents, hr⟩ := (loaderNewForStream_iff file.read r).mp ⟨fuel, h⟩
        exact ⟨contents, .read hunread hcontents, hr⟩

/-- A stream that hands out one byte at a time, whatever the size of the buffer. -/
def GInputStream.trickle (bytes : Bytes) : GInputStream where
  State := Bytes
  read
    | b :: bs, _ :: rest => (1, b :: rest, bs)
    | bs, chunk => (0, chunk, bs)
  next
    | b :: bs, _ + 1 => .piece [b] bs
    | _, _ => .ended
  fills
    | b :: _, _ :: rest => ⟨List.cons_ne_nil b [], rfl, ⟨rest, rfl⟩, rfl, rfl⟩
    | [], _ => rfl
    | _ :: _, [] => rfl
  now := bytes

theorem GInputStream.trickle_holds (bytes : Bytes) : (trickle bytes).Holds bytes true := by
  induction bytes with
  | nil => exact .ended rfl
  | cons b _ ih => exact .piece (l := [b]) rfl ih

end

/-! ## The name of a file -/

/-- A load hands on what the engine answers. -/
theorem LoaderState.load_eq_answered {s : LoaderState} {inner : Loader} (h : s.inner = some inner)
    (host : Host) : s.load host = do
      let loader := s.limits.apply (loaderApplyTransformations inner s.applyTransformations)
      return ({ s with inner := none }, s.answered (← loader.load host)) := by
  rw [LoaderState.load, h]
  dsimp only
  rw [loaderLoad]
  cases (s.limits.apply (loaderApplyTransformations inner s.applyTransformations)).load host with
  | error panic => rfl
  | ok answer => cases answer <;> rfl

section
variable {host : Host} {name : String} {bytes : Bytes}

/-- The format the name of a file speaks for. -/
def namedFormat (name : String) : Option KnownFormat :=
  (Loader.newPath name).extensionHint.bind KnownFormat.fromExtension

theorem chooseFormat_newPath (name : String) (bytes : Bytes) (apply : Bool) :
    ((Loader.newPath name).withApplyTransformations apply).chooseFormat bytes =
      (Sniff.detect bytes).or (namedFormat name) := rfl

theorem chooseFormat_newBytes (bytes : Bytes) (apply : Bool) :
    ((Loader.newBytes bytes).withApplyTransformations apply).chooseFormat bytes =
      Sniff.detect bytes :=
  Option.or_none

/-- Where the name does not decide, the path and the bytes are decoded alike. -/
theorem load_newPath (hread : host.readFile name = .ok bytes)
    (h : Sniff.detect bytes ≠ none ∨ namedFormat name = none) (apply : Bool) :
    ((Loader.newPath name).withApplyTransformations apply).load host =
      ((Loader.newBytes bytes).withApplyTransformations apply).load host := by
  have hformat : (Sniff.detect bytes).or (namedFormat name) = Sniff.detect bytes := by
    rcases h with h | h
    · exact Option.or_of_isSome (Option.isSome_iff_ne_none.mpr h)
    · rw [h, Option.or_none]
  have hpath : ((Loader.newPath name).withApplyTransformations apply).source.readAll host =
      .ok bytes := hread
  have hbytes : ((Loader.newBytes bytes).withApplyTransformations apply).source.readAll host =
      .ok bytes := rfl
  have hdecoded : ((Loader.newPath name).withApplyTransformations apply).decoded host =
      ((Loader.newBytes bytes).withApplyTransformations apply).decoded host := by
    rw [Loader.decoded, Loader.decoded, hpath, hbytes]
    simp only [Except.mapError, ok_bind, chooseFormat_newPath, chooseFormat_newBytes, hformat]
    rfl
  rw [Loader.load, Loader.load, hdecoded]
  rfl

/-- Without a signature the bytes alone are of no format. -/
theorem load_newBytes_undetected (h : Sniff.detect bytes = none) (apply : Bool) :
    ((Loader.newBytes bytes).withApplyTransformations apply).load host =
      .ok (.error .unsupportedFormat) := by
  have hbytes : ((Loader.newBytes bytes).withApplyTransformations apply).source.readAll host =
      .ok bytes := rfl
  have hdecoded : ((Loader.newBytes bytes).withApplyTransformations apply).decoded host =
      .error .unsupportedFormat := by
    rw [Loader.decoded, hbytes]
    simp only [Except.mapError, ok_bind, chooseFormat_newBytes, h]
    rfl
  rw [Loader.load, hdecoded]
  rfl

/-- A file loads as the engine loads its path, whatever has been set, unless only its name tells
its format: the engine decodes it as that format, but the shim does not pass the name on, and
the format is unsupported. -/
theorem file_loads_as_path {host host' : Host} {file : GFile} {name : String} {bytes : Bytes}
    (hpath : file.path = some (utf8 name)) (hread : host.readFile name = .ok bytes)
    (hread' : host'.readFile name = .ok bytes) (apply : Bool) (accepted : UInt32) :
    ∃ s, (∀ fuel, loaderNew host fuel (some file) = some (.ok (some s))) ∧
      let s' := (s.setApplyTransformations apply).setAcceptedMemoryFormats accepted
      ((Sniff.detect bytes ≠ none ∨ namedFormat name = none) → s'.load host' = do
        let answer ← ((Loader.newPath name).withApplyTransformations apply).load host'
        return ({ s' with inner := none }, s'.answered answer)) ∧
      ((Sniff.detect bytes = none ∧ namedFormat name ≠ none) →
        (∃ format, namedFormat name = some format ∧
          ((Loader.newPath name).withApplyTransformations apply).chooseFormat bytes =
            some format) ∧
        s'.load host' = .ok ({ s' with inner := none },
          .error (.new 0 "gly_loader_load: unsupported image format"))) := by
  have hreads : file.ReadsAs host bytes := ⟨_, hpath, by rwa [toStringLossy_utf8]⟩
  refine ⟨.newFromBytes bytes, loaderNew_of_readsAs hreads, fun hformat => ?_, fun hformat => ?_⟩
  · rw [LoaderState.load_eq_answered rfl, load_newPath hread' hformat]
    rfl
  · obtain ⟨hdetect, hnamed⟩ := hformat
    obtain ⟨format, hformat⟩ := Option.ne_none_iff_exists'.mp hnamed
    refine ⟨⟨format, hformat, ?_⟩, ?_⟩
    · rw [chooseFormat_newPath, hdetect, hformat]
      rfl
    · rw [LoaderState.load_eq_answered rfl]
      exact bind_eq_ok.mpr ⟨_, load_newBytes_undetected hdetect apply, rfl⟩

/-- A PNG file, and a file that is a picture by its name alone. -/
def twoFiles (path : String) : Except String Bytes :=
  if path = "grey.png" then .ok [0x89, 0x50, 0x4e, 0x47, 0x0d, 0x0a, 0x1a, 0x0a]
  else if path = "grey.tga" then .ok [7]
  else .error "No such file or directory (os error 2)"

/-- The one loads as its path does; the other is refused. -/
theorem file_loads_as_path_twoFiles :
    let host : Host := { Host.plain greyPixel with readFile := twoFiles }
    (∃ s s' img, loaderNew host 0 (some ⟨some (utf8 "grey.png"), none⟩) =
        some (.ok (some s)) ∧
      ((s.setApplyTransformations true).setAcceptedMemoryFormats 0).load host =
        .ok (s', .ok img)) ∧
    ∃ s s', loaderNew host 0 (some ⟨some (utf8 "grey.tga"), none⟩) = some (.ok (some s)) ∧
      ((s.setApplyTransformations true).setAcceptedMemoryFormats 0).load host =
        .ok (s', .error (.new 0 "gly_loader_load: unsupported image format")) ∧
      ∃ format, ((Loader.newPath "grey.tga").withApplyTransformations true).chooseFormat [7] =
        some format := by
  intro host
  constructor
  · have hread : host.readFile "grey.png" =
        .ok [0x89, 0x50, 0x4e, 0x47, 0x0d, 0x0a, 0x1a, 0x0a] := rfl
    have hpath : (⟨some (utf8 "grey.png"), none⟩ : GFile).path = some (utf8 "grey.png") := rfl
    obtain ⟨s, hnew, hload, -⟩ := file_loads_as_path hpath hread hread true 0
    obtain ⟨image, himage⟩ : ∃ image,
        ((Loader.newPath "grey.png").withApplyTransformations true).load host = .ok (.ok image) :=
      ⟨_, rfl⟩
    have hloads := (hload (.inl (by decide))).trans (bind_eq_ok.mpr ⟨_, himage, rfl⟩)
    exact ⟨s, _, _, hnew 0, hloads⟩
  · have hread : host.readFile "grey.tga" = .ok [7] := rfl
    have hpath : (⟨some (utf8 "grey.tga"), none⟩ : GFile).path = some (utf8 "grey.tga") := rfl
    obtain ⟨s, hnew, -, hload⟩ := file_loads_as_path hpath hread hread true 0
    obtain ⟨⟨format, -, hformat⟩, hload⟩ := hload (by decide)
    exact ⟨s, _, hnew 0, hload, format, hformat⟩

end

end GlycinNg.Shim
