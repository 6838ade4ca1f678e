import GlycinNg.Formats.Svg.Xinclude.Tree

/-! # The probe before the `xi:include` pass

The probe looks for the bytes `xi:include`; the pass takes elements of that name and
elements named `include`. Where the probe rejects an input the pass would have found no
`xi:include` either, but it may have replaced an `include`: `probe_harmless_iff` says
for which inputs it would not. -/
namespace GlycinNg.Xinclude
open Rust Nested

/-- The probe finds its needle wherever it is. -/
theorem memchrSubseq_iff {hay needle : Bytes} : memchrSubseq hay needle ↔ needle <:+: hay := by
  rw [memchrSubseq]
  split
  · rename_i hshort
    rw [Bool.or_eq_true, List.isEmpty_iff, decide_eq_true_iff] at hshort
    rw [List.isEmpty_iff]
    constructor
    · intro hempty
      rw [hempty]
      exact List.nil_infix
    · intro hinfix
      exact hshort.resolve_right (Nat.not_lt.mpr hinfix.length_le)
  · rename_i hlong
    simp only [List.any_eq_true, List.mem_range, beq_iff_eq]
    constructor
    · intro ⟨i, _, hi⟩
      rw [← hi]
      exact (List.take_prefix _ _).isInfix.trans (List.drop_suffix _ _).isInfix
    · intro ⟨pre, post, hhay⟩
      refine ⟨pre.length, ?_, by simp [← hhay]⟩
      rw [← hhay]
      simp
      omega

/-- An event of the input names its tags as the input does. -/
def Xml.NamesFrom (xml : Xml) (input : Bytes) : Prop :=
  ∀ tag, some (.start tag) ∈ xml.events input ∨ some (.empty tag) ∈ xml.events input →
    tag.name <:+: input

theorem mem_of_readAll {events : List (Option Event)} {l : List Event}
    (h : readAll events = some l) {event : Event} (hmem : event ∈ l) : some event ∈ events := by
  induction events generalizing l with
  | nil =>
    cases h
    cases hmem
  | cons answer rest ih =>
    cases answer with
    | none => cases h
    | some event' =>
      by_cases heof : event' = .eof
      · rw [heof, readAll] at h
        cases h
        cases hmem
      · rw [readAll_cons heof] at h
        obtain ⟨l, hl, rfl⟩ := Option.map_eq_some_iff.mp h
        rcases List.mem_cons.mp hmem with rfl | hmem
        · exact List.mem_cons_self
        · exact List.mem_cons_of_mem _ (ih hl hmem)

/-- An input that the probe rejects has no tag of the prefixed name. -/
theorem not_prefixed {xml : Xml} {input : Bytes} {l : List Event} {tag : Tag}
    (hnames : xml.NamesFrom input) (hprobe : containsXinclude input = false)
    (hread : readAll (xml.events input) = some l) (htag : .start tag ∈ l ∨ .empty tag ∈ l) :
    tag.name ≠ ascii "xi:include" := by
  intro hname
  have hinfix : tag.name <:+: input :=
    hnames tag (htag.imp (mem_of_readAll hread) (mem_of_readAll hread))
  rw [hname, ← memchrSubseq_iff, ← containsXinclude, hprobe] at hinfix
  cases hinfix

/-- The pass gives nothing back when it does not reach the end or finds nothing to replace. -/
theorem fullPass_eq_none_iff {xml : Xml} (hwrites : ∀ e, (xml.writeEvent e).isSome)
    (input : Bytes) :
    fullPass xml input = none ↔ ∀ l, readAll (xml.events input) = some l →
      Delimited Event.mark (replacement xml) l → ∀ event ∈ l, replacement xml event = none := by
  rw [fullPass_eq hwrites]
  cases hread : readAll (xml.events input) with
  | none => simp
  | some l =>
    simp only [Option.bind_some, Option.some.injEq, forall_eq']
    by_cases hdelimited : Delimited Event.mark (replacement xml) l
    · obtain ⟨items, hitems⟩ := Option.isSome_iff_exists.mp (pass_isSome_iff.mpr hdelimited)
      have hany := pass_replaced_iff hitems
      rw [hitems, Option.bind_some]
      split
      · rename_i hreplaced
        obtain ⟨event, hmem, hsome⟩ := hany.mp hreplaced
        refine iff_of_false (by simp) ?_
        intro hnone
        simp [hnone hdelimited event hmem] at hsome
      · rename_i hkept
        refine iff_of_true rfl ?_
        intro _ event hmem
        rw [← Option.not_isSome_iff_eq_none]
        intro hsome
        exact hkept (hany.mpr ⟨event, hmem, hsome⟩)
    · have hpass : pass Event.mark (replacement xml) l = none := by
        rw [← Option.not_isSome_iff_eq_none, pass_isSome_iff]
        exact hdelimited
      rw [hpass]
      exact iff_of_true rfl fun h => absurd h hdelimited

theorem includeBody_unprefixed {xml : Xml} {tag : Tag} (h : tag.name = ascii "include") :
    includeBody xml tag = (extractDataUriPayload xml tag).bind stripSvgProlog := by
  rw [includeBody, isXincludeName, h]
  simp

theorem includeBody_other {xml : Xml} {tag : Tag} (hprefixed : tag.name ≠ ascii "xi:include")
    (h : tag.name ≠ ascii "include") : includeBody xml tag = none := by
  simp [includeBody, isXincludeName, hprefixed, h]

/-- For which inputs the probe changes nothing: those it lets through, those that the pass
gives up on, and those where no element named `include` can be replaced. -/
theorem probe_harmless_iff (xml : Xml) (input : Bytes)
    (hwrites : ∀ e, (xml.writeEvent e).isSome) (hnames : xml.NamesFrom input) :
    (containsXinclude input = false → fullPass xml input = none) ↔
      containsXinclude input = true ∨
        ∀ l, readAll (xml.events input) = some l →
          Delimited Event.mark (replacement xml) l →
            ∀ tag, .start tag ∈ l ∨ .empty tag ∈ l → tag.name = ascii "include" →
              (extractDataUriPayload xml tag).bind stripSvgProlog = none := by
  rw [fullPass_eq_none_iff hwrites]
  cases hprobe : containsXinclude input with
  | true => simp
  | false =>
    simp only [forall_const, Bool.false_eq_true, false_or]
    constructor
    · intro h l hread hdelimited tag htag hname
      rw [← includeBody_unprefixed hname]
      rcases htag with htag | htag
      · exact h l hread hdelimited _ htag
      · exact h l hread hdelimited _ htag
    · intro h l hread hdelimited event hmem
      have hnone : ∀ tag, .start tag ∈ l ∨ .empty tag ∈ l → includeBody xml tag = none := by
        intro tag htag
        by_cases hname : tag.name = ascii "include"
        · rw [includeBody_unprefixed hname]
          exact h l hread hdelimited tag htag hname
        · exact includeBody_other (not_prefixed hnames hprobe hread htag) hname
      cases event with
      | start tag => exact hnone tag (.inl hmem)
      | empty tag => exact hnone tag (.inr hmem)
      | endTag | text | other | eof => rfl

/-- An icon whose include has no prefix, as with the namespace of XInclude for a default. -/
def bareDocument : Document :=
  .node svgTag
    (.leaf (.empty (.ofHref "include" "data:image/svg+xml;base64,PHN2Zy8+")) .nil) .nil

def bareXml : Xml := crates bareDocument [(ascii "PHN2Zy8+", ascii "<svg/>")]

theorem bareXml_namesFrom : bareXml.NamesFrom bareDocument.source := by
  intro tag htag
  have htag : tag = svgTag ∨ tag = .ofHref "include" "data:image/svg+xml;base64,PHN2Zy8+" := by
    simpa [bareXml, crates, bareDocument, Document.events, Forest.flatten, Leaf.event] using htag
  rcases htag with rfl | rfl
  · exact memchrSubseq_iff.mp (by decide)
  · exact memchrSubseq_iff.mp (by decide)

theorem probe_harmless_iff_bareDocument :
    (containsXinclude bareDocument.source = false →
      fullPass bareXml bareDocument.source = none) ↔
    containsXinclude bareDocument.source = true ∨
      ∀ l, readAll (bareXml.events bareDocument.source) = some l →
        Delimited Event.mark (replacement bareXml) l →
          ∀ tag, .start tag ∈ l ∨ .empty tag ∈ l → tag.name = ascii "include" →
            (extractDataUriPayload bareXml tag).bind stripSvgProlog = none :=
  probe_harmless_iff bareXml bareDocument.source (fun _ => rfl) bareXml_namesFrom

/-- The pass would have inlined the icon, the probe leaves it out. -/
theorem bareDocument_lost :
    bareDocument.source =
      ascii "<svg><include href=\"data:image/svg+xml;base64,PHN2Zy8+\"/></svg>" ∧
    bareXml.NamesFrom bareDocument.source ∧
    expand bareXml bareDocument.source = none ∧
    fullPass bareXml bareDocument.source = some (ascii "<svg><svg/></svg>") ∧
    ¬ (containsXinclude bareDocument.source = false →
      fullPass bareXml bareDocument.source = none) := by
  have hprobe : containsXinclude bareDocument.source = false := by decide +kernel
  have hpass : fullPass bareXml bareDocument.source = some (ascii "<svg><svg/></svg>") := by
    rw [fullPass_document (d := bareDocument) rfl fun _ => rfl]
    decide
  refine ⟨by decide, bareXml_namesFrom, by rw [expand_eq, hprobe]; rfl, hpass, ?_⟩
  intro h
  rw [h hprobe] at hpass
  cases hpass

end GlycinNg.Xinclude
