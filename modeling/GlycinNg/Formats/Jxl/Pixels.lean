import GlycinNg.Formats.Jxl
import GlycinNg.Metadata.Transform
import Mathlib.Data.List.GetD

/-! # Where the samples of JPEG XL land

The codec writes one, two, three or four samples for each pixel to the front of a
buffer of four for each pixel, and the texture reads four at every position. Where
it writes fewer, pixels slide together and the rest of the picture is zero;
`decode_lands_iff` says when each is still where it belongs. -/
namespace GlycinNg
open Rust Raster

/-- The `f32` bit patterns a buffer holds. -/
def floatsOfBytes (littleEndian : Bool) : Bytes → List UInt32
  | b₀ :: b₁ :: b₂ :: b₃ :: rest =>
    u32OfBytes (!littleEndian) b₀ b₁ b₂ b₃ :: floatsOfBytes littleEndian rest
  | _ => []

theorem floatsOfBytes_floatsToBytes (littleEndian : Bool) (v : List UInt32) :
    floatsOfBytes littleEndian (floatsToBytes littleEndian v) = v := by
  induction v with
  | nil => rfl
  | cons a v ih =>
    obtain ⟨b₀, b₁, b₂, b₃, hbytes, hvalue⟩ := u32Bytes_eq (!littleEndian) a
    rw [floatsToBytes, List.flatMap_cons, hbytes]
    show u32OfBytes (!littleEndian) b₀ b₁ b₂ b₃ ::
      floatsOfBytes littleEndian (floatsToBytes littleEndian v) = a :: v
    rw [hvalue, ih]

theorem drop_floatsToBytes (littleEndian : Bool) (v : List UInt32) (n : Nat) :
    (floatsToBytes littleEndian v).drop (n * 4) = floatsToBytes littleEndian (v.drop n) := by
  induction n generalizing v with
  | zero => simp
  | succ n ih =>
    cases v with
    | nil => simp [floatsToBytes]
    | cons a v =>
      rw [List.drop_succ_cons, ← ih v, Nat.succ_mul, Nat.add_comm, ← List.drop_drop]
      rw [floatsToBytes, List.flatMap_cons, List.drop_left' (length_u32Bytes _ _)]
      rfl

theorem take_floatsToBytes (littleEndian : Bool) (v : List UInt32) (n : Nat) :
    (floatsToBytes littleEndian v).take (n * 4) = floatsToBytes littleEndian (v.take n) := by
  induction n generalizing v with
  | zero => simp [floatsToBytes]
  | succ n ih =>
    cases v with
    | nil => simp [floatsToBytes]
    | cons a v =>
      have hrest := ih v
      unfold floatsToBytes at hrest ⊢
      rw [List.take_succ_cons, List.flatMap_cons, List.flatMap_cons, ← hrest, Nat.succ_mul,
        Nat.add_comm, List.take_append, length_u32Bytes, Nat.add_sub_cancel_left,
        List.take_of_length_le (by rw [length_u32Bytes]; omega)]

/-- A pixel of `n` floats is the cell of `n` samples. -/
theorem cell_floatsToBytes (littleEndian : Bool) (v : List UInt32) (n i : Nat) :
    cell (n * 4) (floatsToBytes littleEndian v) i = floatsToBytes littleEndian (cell n v i) := by
  rw [cell, cell, ← Nat.mul_assoc, drop_floatsToBytes, take_floatsToBytes]

/-- A cell inside a buffer, sample by sample. -/
theorem cell_eq_map {v : List UInt32} {b i : Nat} (h : i * b + b ≤ v.length) :
    cell b v i = (List.range b).map fun k => v.getD (i * b + k) 0 := by
  apply List.ext_getElem
  · simp only [cell, List.length_take, List.length_drop, List.length_map, List.length_range]
    omega
  · intro k hk _
    have hk : i * b + k < v.length := by
      simp only [cell, List.length_take, List.length_drop] at hk
      omega
    simp [cell, hk]

namespace Texture

/-- The floats of the pixel at `(x, y)`, when the texture declares floats. -/
def floatPixel (littleEndian : Bool) (t : Texture) (x y : Nat) : Option (List UInt32) :=
  match t.format with
  | .r32g32b32Float | .r32g32b32a32Float => some (floatsOfBytes littleEndian (t.pixel x y))
  | _ => none

/-- The pixels of a packed picture are the cells of its buffer. -/
theorem Shows.pixel_eq {t : Texture} {p : Picture} (h : t.Shows p) (x y : Nat) :
    t.pixel x y = cell p.format.bytesPerPixel p.data (y * p.width.toNat + x) := by
  rw [pixel, cell, h.stride, h.format, h.data, Picture.rowBytes, Nat.add_mul, Nat.mul_assoc]

/-- The buffer of a picture that became a texture has the right length. -/
theorem Shows.packed {t : Texture} {p : Picture} (h : t.Shows p) : p.Packed := by
  rw [Picture.Packed, ← h.data, t.data_length, h.stride, h.height]

end Texture

/-- Positions of a picture and cells of its buffer. -/
theorem forall_position_iff {w h : Nat} {P : Nat → Prop} :
    (∀ x y, x < w → y < h → P (y * w + x)) ↔ ∀ i < w * h, P i := by
  constructor
  · intro hall i hi
    have hw : 0 < w := Nat.pos_of_mul_pos_right (Nat.zero_lt_of_lt hi)
    have hy : i / w < h := Nat.div_lt_of_lt_mul hi
    have hi := hall (i % w) (i / w) (Nat.mod_lt i hw) hy
    rwa [Nat.div_add_mod'] at hi
  · intro hall x y hx hy
    have hi := index_lt hx hy
    rw [Nat.mul_comm h] at hi
    exact hall _ hi

namespace Jxl

/-- `1.0_f32`. -/
def one : UInt32 := 0x3f800000

/-- The floats a pixel of the given samples has to be shown with. -/
def PixelFormat.shown : PixelFormat → List UInt32 → List UInt32
  | .gray, [g] => [g, g, g, one]
  | .graya, [g, a] => [g, g, g, a]
  | _, colour => colour

/-- The texture shows at each position the samples the codec wrote for it. -/
def JxlImage.Lands (jxl : JxlImage) (littleEndian : Bool) (samples : List UInt32) (t : Texture) :
    Prop :=
  ∀ x y, x < jxl.width.toNat → y < jxl.height.toNat →
    t.floatPixel littleEndian x y = some (jxl.pixelFormat.shown
      (cell jxl.pixelFormat.channels samples (y * jxl.width.toNat + x)))

/-- The codec writes one sample for each channel of each pixel. -/
def JxlImage.WritesChannels (jxl : JxlImage) : Prop :=
  ∀ idx samples, jxl.renderFrame idx = .ok samples →
    samples.length = jxl.pixelCount * jxl.pixelFormat.channels

/-- The samples of a frame cannot slide: there are three or four for each pixel, or
no pixels, or all are zero where two could pass for four. -/
def JxlImage.Unmoved (jxl : JxlImage) (samples : List UInt32) : Prop :=
  jxl.pixelFormat = .rgb ∨ jxl.pixelFormat = .rgba ∨ jxl.pixelCount = 0 ∨
    jxl.pixelFormat = .graya ∧ ∀ v ∈ samples, v = 0

variable {jxl : JxlImage} {littleEndian : Bool} {samples : List UInt32} {t : Texture} {n : Nat}

/-- Behind what the codec wrote the buffer is zero. -/
theorem getD_buffer (hlen : samples.length ≤ n) {j : Nat} (hj : j < n) :
    (overlay samples (List.replicate n 0)).getD j 0 = samples.getD j 0 := by
  simp only [overlay, List.length_replicate, List.take_of_length_le hlen, List.drop_replicate,
    List.getD_eq_getElem?_getD]
  by_cases h : j < samples.length
  · rw [List.getElem?_append_left h]
  · rw [Nat.not_lt] at h
    rw [List.getElem?_append_right h, List.getElem?_eq_none h,
      List.getElem?_replicate_of_lt (by omega)]
    rfl

/-- What a texture of four floats reads at a position: four samples in a row. -/
theorem floatPixel_eq {format : MemoryFormat} {x y : Nat}
    (ht : t.Shows (jxl.picture littleEndian format (jxl.pixelCount * 4) samples))
    (hformat : format = .r32g32b32a32Float)
    (hlen : samples.length ≤ jxl.pixelCount * 4)
    (hi : y * jxl.width.toNat + x < jxl.pixelCount) :
    t.floatPixel littleEndian x y =
      some ((List.range 4).map fun k => samples.getD ((y * jxl.width.toNat + x) * 4 + k) 0) := by
  have hend := cell_end_le (b := 4) hi
  have hpixel := ht.pixel_eq x y
  subst hformat
  have hbuffer : (overlay samples (List.replicate (jxl.pixelCount * 4) 0)).length =
      jxl.pixelCount * 4 := by simp
  rw [Texture.floatPixel, ht.format]
  show some (floatsOfBytes littleEndian (t.pixel x y)) = _
  rw [hpixel]
  show some (floatsOfBytes littleEndian (cell (4 * 4) (floatsToBytes littleEndian
    (overlay samples (List.replicate (jxl.pixelCount * 4) 0))) (y * jxl.width.toNat + x))) = _
  rw [cell_floatsToBytes, floatsOfBytes_floatsToBytes, cell_eq_map (by rw [hbuffer]; exact hend)]
  congr 1
  apply List.map_congr_left
  intro k hk
  rw [List.mem_range] at hk
  exact getD_buffer hlen (by omega)

/-- The pixels of a picture of four floats, read against the samples. -/
theorem lands_iff
    (ht : t.Shows (jxl.picture littleEndian .r32g32b32a32Float (jxl.pixelCount * 4) samples))
    (hlen : samples.length ≤ jxl.pixelCount * 4) :
    jxl.Lands littleEndian samples t ↔ ∀ i < jxl.pixelCount,
      ((List.range 4).map fun k => samples.getD (i * 4 + k) 0) =
        jxl.pixelFormat.shown (cell jxl.pixelFormat.channels samples i) := by
  rw [JxlImage.pixelCount, ← forall_position_iff (P := fun i =>
    ((List.range 4).map fun k => samples.getD (i * 4 + k) 0) =
      jxl.pixelFormat.shown (cell jxl.pixelFormat.channels samples i)), JxlImage.Lands]
  apply forall₄_congr
  intro x y hx hy
  have hi := index_lt hx hy
  rw [Nat.mul_comm jxl.height.toNat] at hi
  rw [floatPixel_eq ht rfl hlen hi, Option.some.injEq]

/-- Values that are passed on to later places and are zero from some place on
are zero everywhere. -/
theorem eq_zero_of_passed {s : Nat → UInt32} (hpassed : ∀ j < n, ∃ k > j, s j = s k)
    (hend : ∀ j, n ≤ j → s j = 0) (j : Nat) : s j = 0 := by
  by_cases hj : j < n
  · obtain ⟨k, hk, hjk⟩ := hpassed j hj
    rw [hjk]
    exact eq_zero_of_passed hpassed hend k
  · exact hend j (Nat.not_lt.mp hj)
termination_by n - j

/-- The samples of the last grey pixel end long before its alpha is read. -/
theorem not_lands_gray (hgray : jxl.pixelFormat = .gray) (hpos : 0 < jxl.pixelCount)
    (hlen : samples.length = jxl.pixelCount)
    (ht : t.Shows (jxl.picture littleEndian .r32g32b32a32Float (jxl.pixelCount * 4) samples)) :
    ¬ jxl.Lands littleEndian samples t := by
  rw [lands_iff ht (by omega), hgray]
  intro hall
  have hlast := hall (jxl.pixelCount - 1) (by omega)
  have hcell : (jxl.pixelCount - 1) * 1 + 1 ≤ samples.length := by omega
  have halpha : samples.getD ((jxl.pixelCount - 1) * 4 + 3) 0 = 0 :=
    List.getD_eq_default _ _ (by omega)
  rw [show PixelFormat.gray.channels = 1 from rfl, cell_eq_map hcell] at hlast
  simp only [List.range_succ, List.range_zero, List.nil_append, List.cons_append, List.map_cons,
    List.map_nil, PixelFormat.shown, List.cons.injEq, and_true] at hlast
  have hone : one = 0 := hlast.2.2.2.symm.trans halpha
  exact absurd hone (by decide)

/-- A grey pixel with alpha reads the samples of two others; only zeros agree. -/
theorem lands_graya_iff (hgraya : jxl.pixelFormat = .graya)
    (hlen : samples.length = jxl.pixelCount * 2)
    (ht : t.Shows (jxl.picture littleEndian .r32g32b32a32Float (jxl.pixelCount * 4) samples)) :
    jxl.Lands littleEndian samples t ↔ ∀ v ∈ samples, v = 0 := by
  have hread : jxl.Lands littleEndian samples t ↔ ∀ i < jxl.pixelCount,
      samples.getD (i * 4) 0 = samples.getD (i * 2) 0 ∧
      samples.getD (i * 4 + 1) 0 = samples.getD (i * 2) 0 ∧
      samples.getD (i * 4 + 2) 0 = samples.getD (i * 2) 0 ∧
      samples.getD (i * 4 + 3) 0 = samples.getD (i * 2 + 1) 0 := by
    rw [lands_iff ht (by omega), hgraya]
    apply forall₂_congr
    intro i hi
    rw [show PixelFormat.graya.channels = 2 from rfl, cell_eq_map (by omega)]
    simp [List.range_succ, PixelFormat.shown]
  rw [hread]
  constructor
  · intro hall
    have hzero : ∀ j, samples.getD j 0 = 0 := by
      apply eq_zero_of_passed (n := jxl.pixelCount * 2)
      · intro j hj
        obtain ⟨-, -, hgrey, halpha⟩ := hall (j / 2) (by omega)
        rcases Nat.mod_two_eq_zero_or_one j with hr | hr
        · refine ⟨j / 2 * 4 + 2, by omega, ?_⟩
          rw [hgrey, Nat.div_mul_cancel (Nat.dvd_of_mod_eq_zero hr)]
        · refine ⟨j / 2 * 4 + 3, by omega, ?_⟩
          rw [halpha, show j / 2 * 2 + 1 = j by omega]
      · intro j hj
        exact List.getD_eq_default _ _ (by omega)
    intro v hv
    obtain ⟨j, hj, rfl⟩ := List.getElem_of_mem hv
    rw [← hzero j, List.getD_eq_getElem _ _ hj]
  · intro hall i _
    have hzero : ∀ j, samples.getD j 0 = 0 := by
      intro j
      by_cases hj : j < samples.length
      · rw [List.getD_eq_getElem _ _ hj]
        exact hall _ (List.getElem_mem hj)
      · exact List.getD_eq_default _ _ (Nat.not_lt.mp hj)
    simp only [hzero, and_self]

/-- Four samples for each pixel are read where they were written. -/
theorem lands_rgba (hrgba : jxl.pixelFormat = .rgba)
    (hlen : samples.length = jxl.pixelCount * 4)
    (ht : t.Shows (jxl.picture littleEndian .r32g32b32a32Float (jxl.pixelCount * 4) samples)) :
    jxl.Lands littleEndian samples t := by
  rw [lands_iff ht (Nat.le_of_eq hlen), hrgba]
  intro i hi
  have hend := cell_end_le (b := 4) hi
  show _ = cell 4 samples i
  rw [cell_eq_map (by omega)]

theorem lands_of_empty (h : jxl.pixelCount = 0) : jxl.Lands littleEndian samples t := by
  intro x y hx hy
  have hi := index_lt hx hy
  rw [JxlImage.pixelCount, Nat.mul_comm] at h
  omega

/-- The pixels of a frame are where the codec put them exactly when they could
not slide. -/
theorem lands_iff_unmoved {format : MemoryFormat} (hformat : mapFormat jxl.pixelFormat = .ok format)
    (hlen : samples.length = jxl.pixelCount * jxl.pixelFormat.channels)
    (ht : t.Shows (jxl.picture littleEndian format (jxl.pixelCount * 4) samples)) :
    jxl.Lands littleEndian samples t ↔ jxl.Unmoved samples := by
  unfold JxlImage.Unmoved
  by_cases hempty : jxl.pixelCount = 0
  · exact iff_of_true (lands_of_empty hempty) (.inr (.inr (.inl hempty)))
  have hpacked := picture_packed_iff.mp ht.packed
  cases hpf : jxl.pixelFormat with
  | other debug =>
    rw [hpf] at hformat
    cases hformat
  | rgb =>
    -- four floats for each pixel do not make a texture of three
    rw [hpf] at hformat
    exact absurd ⟨rfl, Nat.pos_of_ne_zero hempty⟩
      (mt (mapFormat_mismatch hformat).mpr (not_not.mpr hpacked))
  | rgba =>
    rw [hpf] at hformat hlen
    cases hformat
    exact iff_of_true (lands_rgba hpf hlen ht) (.inr (.inl rfl))
  | gray =>
    rw [hpf] at hformat hlen
    cases hformat
    have hmoved := not_lands_gray hpf (Nat.pos_of_ne_zero hempty)
      (hlen.trans (Nat.mul_one _)) ht
    simp [hmoved, hempty]
  | graya =>
    rw [hpf] at hformat hlen
    cases hformat
    rw [lands_graya_iff hpf hlen ht]
    simp [hempty]

/-- The frames of a decode that returns show what the codec rendered. -/
theorem frames_of_decode {crate : Crate} {bytes : Bytes} {opts : DecodeOptions} {img : Image}
    (hjxl : crate bytes = .ok jxl)
    (h : (decode crate littleEndian bytes opts).result = .ok img) :
    ∃ format, mapFormat jxl.pixelFormat = .ok format ∧
      img.frames.length = jxl.numKeyframes.toNat ∧
      ∀ idx f, img.frames[idx]? = some f → ∃ samples, jxl.renderFrame idx = .ok samples ∧
        f.texture.Shows (jxl.picture littleEndian format (jxl.pixelCount * 4) samples) := by
  obtain ⟨jxl', d, hjxl', -, hd, hcarries, -⟩ := decode_ok h
  rw [hjxl] at hjxl'
  cases hjxl'
  have hlength := (delivery_eq hd).2.2.1
  simp only [JxlImage.delivery, bind, Option.bind_eq_some_iff] at hd
  obtain ⟨format, hformat, shots, hshots, hd⟩ := hd
  cases hd
  refine ⟨format, toOption_eq_some.mp hformat, hcarries.length_eq.trans hlength, ?_⟩
  intro idx f hf
  obtain ⟨hidx, rfl⟩ := List.getElem?_eq_some_iff.mp hf
  obtain ⟨hlen, hframes⟩ := List.forall₂_iff_get.mp hcarries.frames
  obtain ⟨hrange, hshots⟩ := List.forall₂_iff_get.mp (mapM_eq_some.mp hshots)
  rw [List.length_range] at hrange
  dsimp only at hlen
  have hshot := hshots idx (by rw [List.length_range]; omega) (by omega)
  have hframe := hframes idx (by omega) hidx
  simp only [List.get_eq_getElem, List.getElem_range] at hshot hframe
  obtain ⟨samples, hsamples, hs⟩ := Option.map_eq_some_iff.mp hshot
  have htexture := hframe.texture
  rw [← hs] at htexture
  exact ⟨samples, toOption_eq_some.mp hsamples, htexture⟩

/-- The pixels of every frame of a decode that returns are where the codec put
them exactly when the samples of no frame could slide. -/
theorem decode_lands_iff {crate : Crate} {bytes : Bytes} {opts : DecodeOptions} {img : Image}
    (hjxl : crate bytes = .ok jxl) (hwrites : jxl.WritesChannels)
    (h : (decode crate littleEndian bytes opts).result = .ok img) :
    (∀ idx f samples, img.frames[idx]? = some f → jxl.renderFrame idx = .ok samples →
      jxl.Lands littleEndian samples f.texture) ↔
    ∀ idx samples, idx < jxl.numKeyframes.toNat → jxl.renderFrame idx = .ok samples →
      jxl.Unmoved samples := by
  obtain ⟨format, hformat, hcount, hframes⟩ := frames_of_decode hjxl h
  have lands : ∀ {idx f samples}, img.frames[idx]? = some f → jxl.renderFrame idx = .ok samples →
      (jxl.Lands littleEndian samples f.texture ↔ jxl.Unmoved samples) := by
    intro idx f samples hf hsamples
    obtain ⟨samples', hsamples', ht⟩ := hframes idx f hf
    rw [hsamples] at hsamples'
    cases hsamples'
    exact lands_iff_unmoved hformat (hwrites idx samples hsamples) ht
  constructor
  · intro hall idx samples hidx hsamples
    rw [← hcount] at hidx
    have hf := List.getElem?_eq_getElem hidx
    exact (lands hf hsamples).mp (hall idx _ samples hf hsamples)
  · intro hall idx f samples hf hsamples
    obtain ⟨hidx, -⟩ := List.getElem?_eq_some_iff.mp hf
    rw [hcount] at hidx
    exact (lands hf hsamples).mpr (hall idx samples hidx hsamples)

/-- One white pixel. -/
def dot (pixelFormat : PixelFormat) (samples : List UInt32) : JxlImage where
  width := 1
  height := 1
  numLoadedKeyframes := 1
  pixelFormat := pixelFormat
  renderFrame _ := .ok samples
  frameDuration _ := none
  animation := none
  originalIcc := none

theorem decode_lands_iff_dot :
    (dot .rgba [one, 0, 0, one]).WritesChannels ∧
    ∃ img, (decode (fun _ => .ok (dot .rgba [one, 0, 0, one])) true [] .default).result = .ok img ∧
      ∀ idx f samples, img.frames[idx]? = some f →
        (dot .rgba [one, 0, 0, one]).renderFrame idx = .ok samples →
          (dot .rgba [one, 0, 0, one]).Lands true samples f.texture := by
  have hwrites : (dot .rgba [one, 0, 0, one]).WritesChannels := by
    intro idx samples hsamples
    cases hsamples
    rfl
  obtain ⟨img, himg⟩ : ∃ img,
      (decode (fun _ => .ok (dot .rgba [one, 0, 0, one])) true [] .default).result = .ok img :=
    ⟨_, rfl⟩
  refine ⟨hwrites, img, himg, (decode_lands_iff rfl hwrites himg).mpr ?_⟩
  intro idx samples _ _
  exact .inr (.inl rfl)

/-- A white pixel of one sample comes out red and transparent. -/
theorem whiteDot_moved :
    (dot .gray [one]).WritesChannels ∧
    ∃ img f, (decode (fun _ => .ok (dot .gray [one])) true [] .default).result = .ok img ∧
      img.frames = [f] ∧ (dot .gray [one]).renderFrame 0 = .ok [one] ∧
      f.texture.floatPixel true 0 0 = some [one, 0, 0, 0] ∧
      PixelFormat.gray.shown [one] = [one, one, one, one] ∧
      ¬ (dot .gray [one]).Lands true [one] f.texture := by
  refine ⟨?_, _, _, rfl, rfl, rfl, by decide +kernel, rfl, ?_⟩
  · intro idx samples hsamples
    cases hsamples
    rfl
  · intro hlands
    exact absurd (hlands 0 0 (by decide) (by decide)) (by decide +kernel)

end Jxl
end GlycinNg
