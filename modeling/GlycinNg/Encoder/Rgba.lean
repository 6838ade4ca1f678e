import GlycinNg.Shim.Samplers
import GlycinNg.Shim.Pixels

/-! # What `to_rgba8` accepts and reads

The frames `to_rgba8` takes and what it makes of them: one pass over a strided raster, as
in the shim, with the four bytes of each pixel in place of it. -/
namespace GlycinNg.Encoder
open Rust CApi Raster

/-- The formats `sample_rgba8` has a branch for. -/
def eightBit : List MemoryFormat :=
  [.g8, .g8a8, .g8a8Premultiplied, .r8g8b8, .b8g8r8, .r8g8b8a8, .r8g8b8a8Premultiplied,
    .b8g8r8a8, .b8g8r8a8Premultiplied, .a8r8g8b8, .a8r8g8b8Premultiplied, .a8b8g8r8]

theorem mem_eightBit_iff {f : MemoryFormat} :
    f ∈ eightBit ↔ memoryFormatToCUint f ∈ Shim.eightBit := by
  cases f <;> decide

/-- The four bytes a pixel becomes. -/
def rgbaBytes (format : MemoryFormat) (p : Bytes) : Bytes :=
  match sampleRgba8 format p with
  | .ok (some (r, g, b, a)) => [r, g, b, a]
  | _ => [0, 0, 0, 0]

@[simp] theorem length_rgbaBytes (format : MemoryFormat) (p : Bytes) :
    (rgbaBytes format p).length = 4 := by
  unfold rgbaBytes
  split <;> rfl

/-- The shim writes the same four bytes. -/
theorem transcode_eq_rgbaBytes (f : MemoryFormat) (p : Bytes) :
    Shim.transcode (memoryFormatToCUint f) formatR8g8b8a8 p = rgbaBytes f p := by
  rw [Shim.transcode, Shim.rgba, Shim.sampleRgba8_eq, rgbaBytes]
  cases sampleRgba8 f p with
  | error e => rfl
  | ok px => cases px <;> rfl

variable {data : Bytes} {width height stride : UInt32} {format : MemoryFormat}

/-! ## Frames of the right size -/

/-- In the numbering of the shim such a frame is complete. -/
theorem Accepts.complete (h : Accepts data.length width height stride format) :
    (Shim.frameOf format width height stride data 0).Complete where
  row_le := by
    show width.toNat * Shim.bytesPerPixelNg (memoryFormatToCUint format) ≤ stride.toNat
    rw [Shim.bytesPerPixelNg_memoryFormatToCUint]
    exact h.row_le
  holds := by
    show Holds (Shim.bytesPerPixelNg (memoryFormatToCUint format)) stride.toNat width.toNat
      height.toNat data
    rw [Shim.bytesPerPixelNg_memoryFormatToCUint]
    exact holds_iff.mpr h.data_le

/-- What is read of a frame of the right size. -/
theorem toRgba8_eq_remap (h : Accepts data.length width height stride format)
    (hread : width.toNat * height.toNat = 0 ∨ format ∈ eightBit) :
    toRgba8 data width height stride format = .ok (.ok (remap format.bytesPerPixel stride.toNat
      width.toNat height.toNat (rgbaBytes format) data)) := by
  have hbpp := Shim.bytesPerPixelNg_memoryFormatToCUint format
  have hpos := format.bytesPerPixel_pos
  have hreadable : (Shim.frameOf format width height stride data 0).Readable := by
    rcases hread with hzero | hformat
    · exact .inr (Nat.mul_eq_zero.mp hzero)
    · exact .inl (mem_eightBit_iff.mp hformat)
  have hsource : Shim.bytesPerPixelNg (memoryFormatToCUint format) ≠ 0 := by omega
  have htarget : Shim.bytesPerPixelNg formatR8g8b8a8 ≠ 0 := by decide
  have hlayout := Shim.convertLayout_eq_converted h.complete hreadable hsource htarget
  have heq := Shim.convertLayout_eq (d := 0) h.row_le (Shim.rowsInside_iff.mpr h.data_le)
  have hdata : ((Shim.frameOf format width height stride data 0).converted formatR8g8b8a8).data =
      remap format.bytesPerPixel stride.toNat width.toNat height.toNat (rgbaBytes format) data := by
    have hfun : Shim.transcode (memoryFormatToCUint format) formatR8g8b8a8 = rgbaBytes format :=
      funext (transcode_eq_rgbaBytes format)
    rw [← hfun, ← hbpp]
    rfl
  rw [hlayout] at heq
  rw [Shim.toRgba8_eq h]
  cases hrows : convertRows data width stride format (width.toNat * format.bytesPerPixel)
      height.toNat 0 with
  | error e =>
    rw [hrows] at heq
    cases heq
  | ok out =>
    rw [hrows] at heq
    rw [toOption_eq_some.mp (Except.ok.inj heq).symm, hdata]

/-- A frame with pixels in another format is refused at its first pixel. -/
theorem toRgba8_unreadable (h : Accepts data.length width height stride format)
    (hwidth : 0 < width.toNat) (hheight : 0 < height.toNat) (hformat : format ∉ eightBit) :
    toRgba8 data width height stride format =
      .ok (.error (.internal ("no rgba8 sampler for " ++ format.debug))) := by
  obtain ⟨w, hw⟩ := Nat.exists_eq_succ_of_ne_zero (Nat.ne_of_gt hwidth)
  obtain ⟨n, hn⟩ := Nat.exists_eq_succ_of_ne_zero (Nat.ne_of_gt hheight)
  have hrow : width.toNat * format.bytesPerPixel ≤ data.length := by
    have hlast := h.data_le.resolve_left (Nat.ne_of_gt hheight)
    omega
  have hpixel : format.bytesPerPixel ≤ width.toNat * format.bytesPerPixel :=
    Nat.le_mul_of_pos_left _ hwidth
  have hsmall : width.toNat * format.bytesPerPixel < usizeValues :=
    calc width.toNat * format.bytesPerPixel
        ≤ stride.toNat := h.row_le
      _ < 2 ^ 32 := stride.toNat_lt
      _ < usizeValues := by decide
  have hnone : ∀ p, sampleRgba8 format p = .ok none := by
    intro p
    cases format
    all_goals first | rfl | exact absurd (by decide) hformat
  have hfirst : convertRow format ((data.drop 0).take (width.toNat * format.bytesPerPixel))
      width.toNat 0 = .ok (.error (.internal ("no rgba8 sampler for " ++ format.debug))) := by
    rw [hw, convertRow, slice_ok (by omega) ?_, ok_bind, hnone]
    · rfl
    · rw [← hw, List.length_take, List.drop_zero]
      omega
  rw [Shim.toRgba8_eq h, hn, convertRows, usizeMul_ok (by rw [Nat.zero_mul]; decide), ok_bind,
    Nat.zero_mul, usizeAdd_ok (by omega), ok_bind, slice_ok (by omega) (by omega), ok_bind,
    Nat.zero_add, Nat.sub_zero, hfirst]
  rfl

/-! ## Any frame -/

/-- The bytes up to the end of the last row. -/
def needed (width height stride : UInt32) (format : MemoryFormat) : Nat :=
  (height.toNat - 1) * stride.toNat + width.toNat * format.bytesPerPixel

/-- The checks look at the length of the buffer only to see if it is enough. -/
theorem checkFrame_congr {n n' : Nat} (h : height.toNat ≠ 0 →
      (needed width height stride format ≤ n ↔ needed width height stride format ≤ n')) :
    checkFrame n width height stride format = checkFrame n' width height stride format := by
  have hrow : width.toNat * format.bytesPerPixel < usizeValues :=
    calc width.toNat * format.bytesPerPixel
        ≤ 2 ^ 32 * 16 := Nat.mul_le_mul width.toNat_lt.le format.bytesPerPixel_le
      _ < usizeValues := by decide
  rw [checkFrame, checkFrame, checkedMul_some hrow, okOr, ok_bind, ok_bind]
  refine bind_congr fun _ => bind_congr fun _ => bind_congr fun _ => bind_congr fun _ => ?_
  split
  · rename_i hheight
    have hpos : height.toNat ≠ 0 := by
      have hlt : 0 < height.toNat := by simpa [UInt32.lt_iff_toNat_lt] using hheight
      omega
    cases hneeded : (checkedMul (height.toNat - 1) stride.toNat).bind
        (checkedAdd · (width.toNat * format.bytesPerPixel)) with
    | none => rfl
    | some v =>
      obtain ⟨rows, hrows, hsum⟩ := Option.bind_eq_some_iff.mp hneeded
      have hv : v = needed width height stride format := by
        rw [eq_of_checkedAdd hsum, eq_of_checkedMul hrows]
        rfl
      have hlt : n < v ↔ n' < v := by
        have hle := h hpos
        omega
      simp only [okOr, ok_bind, hlt]
  · rfl

/-- A frame that is not of the right size is refused. -/
theorem toRgba8_refused (h : ¬ Accepts data.length width height stride format) :
    ∃ e, toRgba8 data width height stride format = .ok (.error e) := by
  cases hcheck : checkFrame data.length width height stride format with
  | ok rowBytes => exact absurd (checkFrame_ok_iff.mp hcheck).2 h
  | error e => exact ⟨e, by rw [toRgba8, hcheck]; rfl⟩

/-- The buffers agree on every byte of every pixel. -/
def SamePixels (width height stride : UInt32) (format : MemoryFormat) (data data' : Bytes) : Prop :=
  ∀ x < width.toNat, ∀ y < height.toNat, ∀ k < format.bytesPerPixel,
    data[y * stride.toNat + x * format.bytesPerPixel + k]? =
      data'[y * stride.toNat + x * format.bytesPerPixel + k]?

section
variable {data' : Bytes}

theorem SamePixels.pixel_eq (h : SamePixels width height stride format data data') {x y : Nat}
    (hx : x < width.toNat) (hy : y < height.toNat) :
    Raster.pixel format.bytesPerPixel stride.toNat data x y =
      Raster.pixel format.bytesPerPixel stride.toNat data' x y := by
  apply List.ext_getElem?
  intro k
  rw [Raster.pixel, Raster.pixel, List.getElem?_take, List.getElem?_take]
  split
  · rename_i hk
    rw [List.getElem?_drop, List.getElem?_drop]
    exact h x hx y hy k hk
  · rfl

/-- With a pixel in every row, buffers that agree on the pixels are long enough
together. -/
theorem SamePixels.needed_le_iff (h : SamePixels width height stride format data data')
    (hwidth : width.toNat ≠ 0) (hheight : height.toNat ≠ 0) :
    needed width height stride format ≤ data.length ↔
      needed width height stride format ≤ data'.length := by
  have hpos := format.bytesPerPixel_pos
  have hlast := h (width.toNat - 1) (by omega) (height.toNat - 1) (by omega)
    (format.bytesPerPixel - 1) (by omega)
  have hwidth : (width.toNat - 1) * format.bytesPerPixel + format.bytesPerPixel =
      width.toNat * format.bytesPerPixel := by
    rw [← Nat.succ_mul, Nat.succ_eq_add_one, Nat.sub_add_cancel (by omega)]
  -- the last byte of the last pixel is in both buffers or in neither
  have hindex : (height.toNat - 1) * stride.toNat + (width.toNat - 1) * format.bytesPerPixel +
      (format.bytesPerPixel - 1) = needed width height stride format - 1 := by
    rw [needed]
    omega
  have hneeded : 0 < needed width height stride format := by
    rw [needed]
    omega
  rw [hindex] at hlast
  have hle : data.length ≤ needed width height stride format - 1 ↔
      data'.length ≤ needed width height stride format - 1 := by
    rw [← List.getElem?_eq_none_iff, ← List.getElem?_eq_none_iff, hlast]
  omega

/-- Buffers that agree on the pixels give the same result, as long as a frame with no
pixel in its rows does not find them in one only. -/
theorem toRgba8_congr (h : SamePixels width height stride format data data')
    (hempty : width.toNat = 0 → (needed width height stride format ≤ data.length ↔
      needed width height stride format ≤ data'.length)) :
    toRgba8 data width height stride format = toRgba8 data' width height stride format := by
  have hneeded : height.toNat ≠ 0 → (needed width height stride format ≤ data.length ↔
      needed width height stride format ≤ data'.length) := by
    intro hheight
    by_cases hwidth : width.toNat = 0
    · exact hempty hwidth
    · exact h.needed_le_iff hwidth hheight
  have hcheck := checkFrame_congr hneeded
  by_cases haccepts : Accepts data.length width height stride format
  · have haccepts' : Accepts data'.length width height stride format :=
      (checkFrame_ok_iff.mp (hcheck ▸ checkFrame_ok_iff.mpr ⟨rfl, haccepts⟩)).2
    by_cases hread : width.toNat * height.toNat = 0 ∨ format ∈ eightBit
    · have hpixels : remap format.bytesPerPixel stride.toNat width.toNat height.toNat
            (rgbaBytes format) data =
          remap format.bytesPerPixel stride.toNat width.toNat height.toNat
            (rgbaBytes format) data' := by
        apply remap_congr
        intro x hx y hy
        rw [h.pixel_eq hx hy]
      rw [toRgba8_eq_remap haccepts hread, toRgba8_eq_remap haccepts' hread, hpixels]
    · simp only [not_or, Nat.mul_eq_zero] at hread
      obtain ⟨⟨hwidth, hheight⟩, hformat⟩ := hread
      have hwidth := Nat.pos_of_ne_zero hwidth
      have hheight := Nat.pos_of_ne_zero hheight
      rw [toRgba8_unreadable haccepts hwidth hheight hformat,
        toRgba8_unreadable haccepts' hwidth hheight hformat]
  · -- the checks refuse both, with one error
    cases hrefused : checkFrame data.length width height stride format with
    | ok rowBytes => exact absurd (checkFrame_ok_iff.mp hrefused).2 haccepts
    | error e =>
      rw [toRgba8, toRgba8, ← hcheck, hrefused]

end

/-! ## `to_rgba8` -/

/-- A pixel of a format that can be read has a colour. -/
theorem exists_sample {p : Bytes} (hformat : format ∈ eightBit)
    (hlen : p.length = format.bytesPerPixel) :
    ∃ r g b a, sampleRgba8 format p = .ok (some (r, g, b, a)) ∧
      rgbaBytes format p = [r, g, b, a] := by
  have hshim := Shim.sampleRgba8_eq_rgba (mem_eightBit_iff.mp hformat)
    (hlen.trans (Shim.bytesPerPixelNg_memoryFormatToCUint format).symm)
  rw [Shim.sampleRgba8_eq] at hshim
  cases hsample : sampleRgba8 format p with
  | error e =>
    rw [hsample] at hshim
    cases hshim
  | ok px =>
    cases px with
    | none =>
      rw [hsample] at hshim
      cases hshim
    | some px => exact ⟨px.1, px.2.1, px.2.2.1, px.2.2.2, rfl, by rw [rgbaBytes, hsample]⟩

/-- The output is one pixel of four bytes after the other. -/
theorem remap_rgbaBytes (h : Accepts data.length width height stride format)
    (hformat : format ∈ eightBit) {x y : Nat} (hx : x < width.toNat) (hy : y < height.toNat) :
    ∃ r g b a, sampleRgba8 format ((data.drop (y * stride.toNat + x * format.bytesPerPixel)).take
        format.bytesPerPixel) = .ok (some (r, g, b, a)) ∧
      ((remap format.bytesPerPixel stride.toNat width.toNat height.toNat (rgbaBytes format)
        data).drop (4 * (y * width.toNat + x))).take 4 = [r, g, b, a] := by
  have hholds := holds_iff.mpr h.data_le
  obtain ⟨r, g, b, a, hsample, hbytes⟩ := exists_sample hformat (length_pixel hholds hx hy)
  refine ⟨r, g, b, a, hsample, ?_⟩
  have hpixel := pixel_remap (fun p _ => length_rgbaBytes format p) hholds hx hy
  rw [pixel_eq_cell, cell, Nat.mul_comm] at hpixel
  rw [hpixel, hbytes]

/-- `to_rgba8` returns on every input, and with the pixels exactly where the stride holds a
row, the output is at most 1 GiB, the buffer reaches the end of the last row and the format
can be read; padding is not looked at. -/
theorem toRgba8_exact (data : Bytes) (width height stride : UInt32) (format : MemoryFormat) :
    ∃ result, toRgba8 data width height stride format = .ok result ∧
      ((∃ out, result = .ok out) ↔
        width.toNat * format.bytesPerPixel ≤ stride.toNat ∧
        width.toNat * 4 * height.toNat ≤ 2 ^ 30 ∧
        (height.toNat = 0 ∨ (height.toNat - 1) * stride.toNat +
          width.toNat * format.bytesPerPixel ≤ data.length) ∧
        (width.toNat * height.toNat = 0 ∨ format ∈ eightBit)) ∧
      (∀ out, result = .ok out → out.length = 4 * width.toNat * height.toNat ∧
        ∀ x < width.toNat, ∀ y < height.toNat, ∃ r g b a,
          sampleRgba8 format ((data.drop (y * stride.toNat + x * format.bytesPerPixel)).take
            format.bytesPerPixel) = .ok (some (r, g, b, a)) ∧
          (out.drop (4 * (y * width.toNat + x))).take 4 = [r, g, b, a]) ∧
      ∀ data', SamePixels width height stride format data data' →
        (width.toNat = 0 → (needed width height stride format ≤ data.length ↔
          needed width height stride format ≤ data'.length)) →
        toRgba8 data' width height stride format = .ok result := by
  by_cases haccepts : Accepts data.length width height stride format
  case neg =>
    obtain ⟨e, he⟩ := toRgba8_refused haccepts
    refine ⟨.error e, he, iff_of_false nofun ?_, nofun, ?_⟩
    · rintro ⟨hrow, hout, hdata, -⟩
      exact haccepts ⟨hrow, hout, hdata⟩
    · intro data' hsame hempty
      rw [← toRgba8_congr hsame hempty, he]
  by_cases hread : width.toNat * height.toNat = 0 ∨ format ∈ eightBit
  case neg =>
    simp only [not_or, Nat.mul_eq_zero] at hread
    obtain ⟨⟨hwidth, hheight⟩, hformat⟩ := hread
    have he := toRgba8_unreadable haccepts (Nat.pos_of_ne_zero hwidth)
      (Nat.pos_of_ne_zero hheight) hformat
    refine ⟨_, he, iff_of_false nofun ?_, nofun, ?_⟩
    · rintro ⟨-, -, -, hread⟩
      rcases hread with hzero | hmem
      · exact (Nat.mul_eq_zero.mp hzero).elim hwidth hheight
      · exact hformat hmem
    · intro data' hsame hempty
      rw [← toRgba8_congr hsame hempty, he]
  have hok := toRgba8_eq_remap haccepts hread
  refine ⟨_, hok, iff_of_true ⟨_, rfl⟩
    ⟨haccepts.row_le, haccepts.output_le, haccepts.data_le, hread⟩, ?_, ?_⟩
  · rintro out ⟨⟩
    constructor
    · have hlen := length_remap (fun p _ => length_rgbaBytes format p)
        (holds_iff.mpr haccepts.data_le)
      rw [hlen, Nat.mul_comm, Nat.mul_comm width.toNat]
    · intro x hx y hy
      have hpos : 0 < width.toNat * height.toNat := Nat.mul_pos (by omega) (by omega)
      exact remap_rgbaBytes haccepts (hread.resolve_left (Nat.ne_of_gt hpos)) hx hy
  · intro data' hsame hempty
    rw [← toRgba8_congr hsame hempty, hok]

/-- Two grey pixels in rows of two bytes: the byte between them plays no part. -/
theorem toRgba8_exact_padded :
    toRgba8 [7, 0, 9] 1 2 2 .g8 = .ok (.ok [7, 7, 7, 255, 9, 9, 9, 255]) ∧
      toRgba8 [7, 1, 9, 1] 1 2 2 .g8 = .ok (.ok [7, 7, 7, 255, 9, 9, 9, 255]) := by
  have hout : toRgba8 [7, 0, 9] 1 2 2 .g8 = .ok (.ok [7, 7, 7, 255, 9, 9, 9, 255]) := by
    decide +kernel
  obtain ⟨result, hresult, -, -, hcongr⟩ := toRgba8_exact [7, 0, 9] 1 2 2 .g8
  rw [hout] at hresult
  obtain rfl := Except.ok.inj hresult
  refine ⟨hout, hcongr [7, 1, 9, 1] ?_ nofun⟩
  intro x hx y hy k hk
  obtain rfl : x = 0 := Nat.lt_one_iff.mp hx
  obtain rfl : k = 0 := Nat.lt_one_iff.mp hk
  match y, hy with
  | 0, _ => rfl
  | 1, _ => rfl

/-- Without a pixel in a row its padding still has to be there. -/
theorem toRgba8_empty_rows :
    ¬ ∀ (data data' : Bytes) (width height stride : UInt32) (format : MemoryFormat),
      SamePixels width height stride format data data' →
        toRgba8 data width height stride format = toRgba8 data' width height stride format := by
  intro h
  have hsame : SamePixels 0 2 1 .g8 [] [0] := by
    intro x hx
    cases hx
  have heq := h [] [0] 0 2 1 .g8 hsame
  exact absurd heq (by decide +kernel)

end GlycinNg.Encoder
