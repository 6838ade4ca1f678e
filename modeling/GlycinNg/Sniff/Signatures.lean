import GlycinNg.Sniff
import GlycinNg.Guarded.FirstMatch
import Mathlib.Data.List.Infix

/-! # Which signature matches

The tests of `sniff::detect` as a list. The first bytes of a buffer name the only format
whose test it can pass, so the order of the tests is free; and each test, the windowed
search for an SVG tag included, still holds when more bytes follow. -/
namespace GlycinNg.Sniff
open Rust Guarded

/-- The tests of `detect`, in the order it tries them. -/
def signatures : List (Test Bytes KnownFormat) := [
  ⟨.png, fun buf => startsWith buf [0x89, 0x50, 0x4e, 0x47, 0x0d, 0x0a, 0x1a, 0x0a]⟩,
  ⟨.jpeg, fun buf => startsWith buf [0xff, 0xd8, 0xff]⟩,
  ⟨.gif, fun buf => startsWith buf (ascii "GIF87a") || startsWith buf (ascii "GIF89a")⟩,
  ⟨.webP, fun buf => decide (12 ≤ buf.length) && buf.take 4 == ascii "RIFF" &&
    (buf.drop 8).take 4 == ascii "WEBP"⟩,
  ⟨.tiff, fun buf => startsWith buf [0x49, 0x49, 0x2a, 0x00] ||
    startsWith buf [0x4d, 0x4d, 0x00, 0x2a]⟩,
  ⟨.bmp, fun buf => startsWith buf (ascii "BM") && decide (14 ≤ buf.length)⟩,
  ⟨.ico, fun buf => startsWith buf [0x00, 0x00, 0x01, 0x00] ||
    startsWith buf [0x00, 0x00, 0x02, 0x00]⟩,
  ⟨.qoi, fun buf => startsWith buf (ascii "qoif")⟩,
  ⟨.exr, fun buf => startsWith buf [0x76, 0x2f, 0x31, 0x01]⟩,
  ⟨.pnm, isPnm⟩,
  ⟨.dds, fun buf => startsWith buf (ascii "DDS ")⟩,
  ⟨.jxl, fun buf => startsWith buf [0xff, 0x0a] ||
    startsWith buf ([0x00, 0x00, 0x00, 0x0c] ++ ascii "JXL " ++ [0x0d, 0x0a, 0x87, 0x0a])⟩,
  ⟨.svg, looksLikeSvg⟩]

theorem detect_eq_firstMatch (buf : Bytes) : detect buf = firstMatch signatures buf := by
  simp only [detect, signatures, firstMatch_cons, firstMatch_nil]

theorem startsWith_mono {b b' pre : Bytes} (hb : b <+: b') (h : startsWith b pre = true) :
    startsWith b' pre = true :=
  startsWith_iff.mpr ((startsWith_iff.mp h).trans hb)

/-! ## The search for an SVG tag -/

/-- What `looks_like_svg` looks at: the window without its byte order mark and blanks. -/
def svgText (probe : Bytes) : Bytes :=
  stripLeadingWhitespace
    (if startsWith probe [0xef, 0xbb, 0xbf] then probe.drop 3 else probe)

/-- An XML declaration with an SVG tag after it, or an SVG tag. -/
def svgRoot (text : Bytes) : Bool :=
  if startsWith text (ascii "<?xml") then findSvgOpenTag text else startsWithSvgOpenTag text

theorem looksLikeSvg_eq (buf : Bytes) : looksLikeSvg buf = svgRoot (svgText (buf.take 512)) := rfl

theorem startsWithSvgOpenTag_mono {t u : Bytes} (htu : t <+: u)
    (h : startsWithSvgOpenTag t = true) : startsWithSvgOpenTag u = true := by
  obtain ⟨htag, hend⟩ := Bool.and_eq_true_iff.mp h
  refine Bool.and_eq_true_iff.mpr ⟨startsWith_mono htu htag, ?_⟩
  cases h4 : t[4]? with
  | none => simp [h4] at hend
  | some c =>
    have hlt : 4 < t.length := (List.getElem?_eq_some_iff.mp h4).1
    have h4' : u[4]? = some c := by
      obtain ⟨s, rfl⟩ := htu
      rw [List.getElem?_append_left hlt, h4]
    simpa [h4, h4'] using hend

/-- The loop finds a tag exactly where one starts at some offset. -/
theorem findSvgOpenTag_iff (t : Bytes) :
    findSvgOpenTag t = true ↔ ∃ i, startsWithSvgOpenTag (t.drop i) = true := by
  have hsvg : (ascii "<svg").length = 4 := rfl
  simp only [findSvgOpenTag, hsvg]
  constructor
  · intro h
    split at h
    · simp at h
    · obtain ⟨i, -, hi⟩ := List.any_eq_true.mp h
      exact ⟨i, (Bool.and_eq_true_iff.mp hi).2⟩
  · rintro ⟨i, hi⟩
    have hpre : ascii "<svg" <+: t.drop i := startsWith_iff.mp (Bool.and_eq_true_iff.mp hi).1
    have hlen : 4 ≤ t.length - i := by simpa [hsvg] using hpre.length_le
    have htake : (t.drop i).take 4 = ascii "<svg" := (List.prefix_iff_eq_take.mp hpre).symm
    rw [if_neg (by omega)]
    refine List.any_eq_true.mpr ⟨i, List.mem_range.mpr (by omega), ?_⟩
    simp [htake, hi]

theorem findSvgOpenTag_mono {t u : Bytes} (htu : t <+: u) (h : findSvgOpenTag t = true) :
    findSvgOpenTag u = true := by
  obtain ⟨i, hi⟩ := (findSvgOpenTag_iff t).mp h
  exact (findSvgOpenTag_iff u).mpr ⟨i, startsWithSvgOpenTag_mono (List.IsPrefix.drop htu i) hi⟩

/-- Such a text opens with `<?` or `<s`. -/
theorem svgRoot_head {t : Bytes} (h : svgRoot t = true) :
    ∃ c r, t = 0x3c :: c :: r ∧ (c = 0x3f ∨ c = 0x73) := by
  unfold svgRoot at h
  split at h
  · rename_i hxml
    obtain ⟨r, rfl⟩ := startsWith_iff.mp hxml
    exact ⟨_, _, rfl, .inl rfl⟩
  · obtain ⟨r, rfl⟩ := startsWith_iff.mp (Bool.and_eq_true_iff.mp h).1
    exact ⟨_, _, rfl, .inr rfl⟩

theorem svgRoot_mono {t u : Bytes} (htu : t <+: u) (h : svgRoot t = true) : svgRoot u = true := by
  unfold svgRoot at h ⊢
  split at h
  · rename_i hxml
    rw [if_pos (startsWith_mono htu hxml)]
    exact findSvgOpenTag_mono htu h
  · -- `<svg` stays in front, so no declaration can have appeared
    have hu : startsWithSvgOpenTag u = true := startsWithSvgOpenTag_mono htu h
    have hno : startsWith u (ascii "<?xml") = false := by
      obtain ⟨r, rfl⟩ := startsWith_iff.mp (Bool.and_eq_true_iff.mp hu).1
      simp [startsWith, ascii]
    simpa [hno] using hu

theorem dropWhile_mono {p : UInt8 → Bool} {a b : Bytes} (hab : a <+: b)
    (hne : a.dropWhile p ≠ []) : a.dropWhile p <+: b.dropWhile p := by
  obtain ⟨s, rfl⟩ := hab
  rw [List.dropWhile_append, if_neg (by simpa using hne)]
  exact List.prefix_append _ _

/-- The first byte of a window whose text starts with a bracket. -/
theorem svgText_head {p r : Bytes} (h : svgText p = 0x3c :: r) :
    ∃ c q, p = c :: q ∧ (c = 0xef ∨ isSpace c = true ∨ c = 0x3c) := by
  unfold svgText at h
  cases p with
  | nil => simp [startsWith, stripLeadingWhitespace] at h
  | cons c q =>
    refine ⟨c, q, rfl, ?_⟩
    split at h
    · rename_i hbom
      left
      exact (List.cons_prefix_cons.mp (startsWith_iff.mp hbom)).1.symm
    · right
      rw [stripLeadingWhitespace, List.dropWhile_cons] at h
      split at h
      · rename_i hc
        exact .inl hc
      · exact .inr (List.cons.inj h).1

theorem svgText_mono {p q r : Bytes} (hpq : p <+: q) (h : svgText p = 0x3c :: r) :
    svgText p <+: svgText q := by
  by_cases hbom : startsWith p [0xef, 0xbb, 0xbf] = true
  · have hbom' := startsWith_mono hpq hbom
    simp only [svgText, hbom, hbom', if_true] at h ⊢
    exact dropWhile_mono (hpq.drop 3) (by rw [← stripLeadingWhitespace, h]; simp)
  · -- a mark cannot be completed by what follows: the first byte is already another one
    have hbom' : ¬ startsWith q [0xef, 0xbb, 0xbf] = true := by
      intro hq
      obtain ⟨c, p', rfl, hc⟩ := svgText_head h
      obtain ⟨s, rfl⟩ := hpq
      have hef : (0xef : UInt8) = c := (List.cons_prefix_cons.mp (startsWith_iff.mp hq)).1
      subst hef
      simp only [svgText, if_neg hbom] at h
      rw [stripLeadingWhitespace, List.dropWhile_cons, if_neg (by decide)] at h
      exact absurd (List.cons.inj h).1 (by decide)
    simp only [svgText, if_neg hbom, if_neg hbom'] at h ⊢
    exact dropWhile_mono hpq (by rw [← stripLeadingWhitespace, h]; simp)

theorem looksLikeSvg_mono {b b' : Bytes} (hb : b <+: b') (h : looksLikeSvg b = true) :
    looksLikeSvg b' = true := by
  rw [looksLikeSvg_eq] at h ⊢
  obtain ⟨_, _, hr, -⟩ := svgRoot_head h
  exact svgRoot_mono (svgText_mono (hb.take 512) hr) h

theorem looksLikeSvg_head {b : Bytes} (h : looksLikeSvg b = true) :
    ∃ c q, b = c :: q ∧ (c = 0xef ∨ isSpace c = true ∨ c = 0x3c) := by
  rw [looksLikeSvg_eq] at h
  obtain ⟨_, _, hr, -⟩ := svgRoot_head h
  obtain ⟨c, q, hcq, hc⟩ := svgText_head hr
  cases b with
  | nil => simp at hcq
  | cons d rest =>
    rw [List.take_succ_cons] at hcq
    exact ⟨d, rest, rfl, (List.cons.inj hcq).1 ▸ hc⟩

/-! ## The other tests -/

theorem isPnm_iff {buf : Bytes} : isPnm buf = true ↔ ∃ kind sep rest,
    buf = 0x50 :: kind :: sep :: rest ∧ (0x31 ≤ kind ∧ kind ≤ 0x37) ∧ isSpace sep = true := by
  constructor
  · intro h
    rcases buf with - | ⟨p, - | ⟨kind, - | ⟨sep, rest⟩⟩⟩
    · simp [isPnm] at h
    · simp [isPnm] at h
    · simp [isPnm] at h
    · simp only [isPnm, Bool.and_eq_true, beq_iff_eq, decide_eq_true_eq] at h
      obtain ⟨⟨rfl, hkind⟩, hsep⟩ := h
      exact ⟨kind, sep, rest, rfl, hkind, hsep⟩
  · rintro ⟨kind, sep, rest, rfl, hkind, hsep⟩
    simp [isPnm, hkind, hsep]

theorem isPnm_mono {b b' : Bytes} (hb : b <+: b') (h : isPnm b = true) : isPnm b' = true := by
  obtain ⟨kind, sep, rest, rfl, hkind, hsep⟩ := isPnm_iff.mp h
  obtain ⟨s, rfl⟩ := hb
  exact isPnm_iff.mpr ⟨kind, sep, rest ++ s, rfl, hkind, hsep⟩

/-- A test of `n` bytes at an offset that both buffers reach. -/
theorem slice_mono {b b' : Bytes} (hb : b <+: b') {i n : Nat} (hlen : i + n ≤ b.length) :
    (b'.drop i).take n = (b.drop i).take n := by
  obtain ⟨s, rfl⟩ := hb
  rw [List.drop_append_of_le_length (by omega), List.take_append_of_le_length (by simp; omega)]

/-- A test that still holds when more bytes follow. -/
def Grows (test : Bytes → Bool) : Prop :=
  ∀ ⦃b b' : Bytes⦄, b <+: b' → test b = true → test b' = true

theorem grows_startsWith (pre : Bytes) : Grows fun buf => startsWith buf pre :=
  fun _ _ hb h => startsWith_mono hb h

theorem grows_length (n : Nat) : Grows fun buf : Bytes => decide (n ≤ buf.length) := by
  intro b b' hb h
  simp only [decide_eq_true_eq] at h ⊢
  exact h.trans hb.length_le

theorem Grows.or {f g : Bytes → Bool} (hf : Grows f) (hg : Grows g) :
    Grows fun buf => f buf || g buf := by
  intro b b' hb h
  rcases Bool.or_eq_true_iff.mp h with h | h
  · exact Bool.or_eq_true_iff.mpr (.inl (hf hb h))
  · exact Bool.or_eq_true_iff.mpr (.inr (hg hb h))

theorem Grows.and {f g : Bytes → Bool} (hf : Grows f) (hg : Grows g) :
    Grows fun buf => f buf && g buf := by
  intro b b' hb h
  obtain ⟨h1, h2⟩ := Bool.and_eq_true_iff.mp h
  exact Bool.and_eq_true_iff.mpr ⟨hf hb h1, hg hb h2⟩

theorem grows_riff : Grows fun buf => decide (12 ≤ buf.length) && buf.take 4 == ascii "RIFF" &&
    (buf.drop 8).take 4 == ascii "WEBP" := by
  intro b b' hb h
  simp only [Bool.and_eq_true, decide_eq_true_eq, beq_iff_eq] at h ⊢
  obtain ⟨⟨hlen, hriff⟩, hwebp⟩ := h
  have htake : b'.take 4 = b.take 4 := by simpa using slice_mono hb (i := 0) (n := 4) (by omega)
  refine ⟨⟨hlen.trans hb.length_le, htake.trans hriff⟩, ?_⟩
  rw [slice_mono hb (by omega), hwebp]

theorem signatures_grow : ∀ t ∈ signatures, Grows t.holds := by
  simp only [signatures, List.forall_mem_cons]
  exact ⟨grows_startsWith _, grows_startsWith _, (grows_startsWith _).or (grows_startsWith _),
    grows_riff, (grows_startsWith _).or (grows_startsWith _),
    (grows_startsWith _).and (grows_length _), (grows_startsWith _).or (grows_startsWith _),
    grows_startsWith _, grows_startsWith _, fun _ _ hb h => isPnm_mono hb h, grows_startsWith _,
    (grows_startsWith _).or (grows_startsWith _), fun _ _ hb h => looksLikeSvg_mono hb h,
    by simp⟩

/-! ## The first bytes name the format -/

/-- The only format whose test the first three bytes leave open. -/
def leading : Bytes → Option KnownFormat
  | [] => none
  | c :: rest =>
    if c = 0x89 then some .png
    else if c = 0xff then if rest.head? = some 0xd8 then some .jpeg else some .jxl
    else if c = 0x47 then some .gif
    else if c = 0x52 then some .webP
    else if c = 0x49 ∨ c = 0x4d then some .tiff
    else if c = 0x42 then some .bmp
    else if c = 0x00 then if rest[1]? = some 0x00 then some .jxl else some .ico
    else if c = 0x71 then some .qoi
    else if c = 0x76 then some .exr
    else if c = 0x50 then some .pnm
    else if c = 0x44 then some .dds
    else some .svg

theorem leading_of_startsWith {buf pre : Bytes} {f : KnownFormat}
    (hpre : ∀ r, leading (pre ++ r) = some f) (h : startsWith buf pre = true) :
    leading buf = some f := by
  obtain ⟨r, rfl⟩ := startsWith_iff.mp h
  exact hpre r

theorem leading_of_or {buf pre pre' : Bytes} {f : KnownFormat}
    (hpre : ∀ r, leading (pre ++ r) = some f) (hpre' : ∀ r, leading (pre' ++ r) = some f)
    (h : (startsWith buf pre || startsWith buf pre') = true) : leading buf = some f := by
  rcases Bool.or_eq_true_iff.mp h with h | h
  · exact leading_of_startsWith hpre h
  · exact leading_of_startsWith hpre' h

theorem leading_of_svg {buf : Bytes} (h : looksLikeSvg buf = true) :
    leading buf = some .svg := by
  obtain ⟨c, q, rfl, hc⟩ := looksLikeSvg_head h
  simp only [isSpace, Bool.or_eq_true, beq_iff_eq] at hc
  rcases hc with rfl | (((rfl | rfl) | rfl) | rfl) | rfl <;> rfl

theorem leading_of_holds : ∀ t ∈ signatures, ∀ buf, t.holds buf = true →
    leading buf = some t.answer := by
  simp only [signatures, List.forall_mem_cons]
  refine ⟨?png, ?jpeg, ?gif, ?webP, ?tiff, ?bmp, ?ico, ?qoi, ?exr, ?pnm, ?dds, ?jxl, ?svg, by simp⟩
  case png | jpeg | qoi | exr | dds => exact fun buf => leading_of_startsWith fun r => rfl
  case gif | tiff | ico | jxl => exact fun buf => leading_of_or (fun r => rfl) (fun r => rfl)
  case webP =>
    intro buf h
    simp only [Bool.and_eq_true, decide_eq_true_eq, beq_iff_eq] at h
    have hpre : ascii "RIFF" <+: buf := h.1.2 ▸ List.take_prefix 4 buf
    exact leading_of_startsWith (fun r => rfl) (startsWith_iff.mpr hpre)
  case bmp =>
    intro buf h
    exact leading_of_startsWith (fun r => rfl) (Bool.and_eq_true_iff.mp h).1
  case pnm =>
    intro buf h
    obtain ⟨kind, sep, rest, rfl, -, -⟩ := isPnm_iff.mp h
    rfl
  case svg => exact fun buf => leading_of_svg

theorem signatures_exclusive : Exclusive signatures :=
  exclusive_of_key leading leading_of_holds (by decide)

/-- No bytes are taken for a TGA file. -/
theorem detect_ne_tga (buf : Bytes) : detect buf ≠ some .tga := by
  rw [detect_eq_firstMatch]
  intro h
  obtain ⟨t, ht, -, hanswer⟩ := exists_of_firstMatch h
  have hall : ∀ t ∈ signatures, t.answer ≠ .tga := by simp [signatures]
  exact hall t ht hanswer

/-- At most one signature matches a buffer, so they may be tried in any order, and a match
survives whatever follows the buffer. -/
theorem detect_order_free_and_stable (b : Bytes) :
    detect b = firstMatch signatures b ∧
    (signatures.filter (·.holds b)).length ≤ 1 ∧
    (∀ tests, tests.Perm signatures → firstMatch tests b = detect b) ∧
    ∀ s f, detect b = some f → detect (b ++ s) = some f := by
  refine ⟨detect_eq_firstMatch b, signatures_exclusive.length_filter_le b, ?_, ?_⟩
  · intro tests hp
    rw [detect_eq_firstMatch, signatures_exclusive.firstMatch_perm hp.symm]
  · intro s f h
    rw [detect_eq_firstMatch] at h ⊢
    exact signatures_exclusive.firstMatch_stable
      (fun t ht => signatures_grow t ht (List.prefix_append b s)) h

theorem detect_order_free_and_stable_tag :
    firstMatch signatures.reverse (ascii "<svg>") = some .svg ∧
    detect (ascii "<svg>" ++ ascii "</svg>") = some .svg := by
  obtain ⟨-, -, horder, hstable⟩ := detect_order_free_and_stable (ascii "<svg>")
  have hsvg : detect (ascii "<svg>") = some .svg := by decide
  exact ⟨(horder _ (List.reverse_perm _)).trans hsvg, hstable _ _ hsvg⟩

end GlycinNg.Sniff
