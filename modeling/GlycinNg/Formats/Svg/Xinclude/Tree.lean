import GlycinNg.Formats.Svg.Xinclude.Stream

/-! # The `xi:include` pass as a rewrite of the document

A well-formed input is the stream of a document tree. `expand_rewrites` says that the
pass, which sees one event at a time, replaces the outermost includes of the tree that can
be resolved and writes the rest as it was. -/
namespace GlycinNg.Xinclude
open Rust Nested

/-- What stands between the tags of a document, or is a tag without content. -/
inductive Leaf where
  | empty (tag : Tag)
  | text (escaped : Bytes)
  | other (content : Bytes)

def Leaf.event : Leaf → Event
  | .empty tag => .empty tag
  | .text escaped => .text escaped
  | .other content => .other content

/-- The tree of a document; the end tag of an element repeats the name of its start tag. -/
abbrev Document := Forest Tag Leaf

namespace Document

/-- The events of a document, in order. -/
def events (d : Document) : List Event :=
  d.flatten Event.start (fun tag => .endTag tag.name) Leaf.event

/-- The document with its outermost resolvable includes replaced by their text. -/
def resolve (xml : Xml) (d : Document) : Forest Tag (Bytes ⊕ Leaf) :=
  d.replaceOutermost (replacement xml ∘ Event.start) (replacement xml ∘ Leaf.event)

end Document

/-- The bytes of a document with some includes replaced. -/
def serialise : Forest Tag (Bytes ⊕ Leaf) → Bytes
  | .nil => []
  | .leaf (.inl text) rest => text ++ serialise rest
  | .leaf (.inr a) rest => a.event.markup ++ serialise rest
  | .node tag children rest =>
    ascii "<" ++ tag.content ++ ascii ">" ++ serialise children ++
      ascii "</" ++ tag.name ++ ascii ">" ++ serialise rest

/-! ## Resolving -/

/-- The value of the first `href` attribute. -/
def Tag.FirstHref (tag : Tag) (value : Bytes) : Prop :=
  ∃ before after, tag.attributes.filterMap id = before ++ (ascii "href", value) :: after ∧
    ∀ attr ∈ before, attr.1 ≠ ascii "href"

/-- `text` is what follows the leading whitespace of the payload and, where it begins
with one, an XML declaration up to its first `>` and the whitespace behind it. -/
def Inlined (payload text : Bytes) : Prop :=
  (ByteArray.mk text.toArray).IsValidUTF8 ∧
    ((payload.dropWhile Sniff.isSpace = text ∧ ¬ ascii "<?xml" <+: text) ∨
      ∃ declaration rest,
        payload.dropWhile Sniff.isSpace = ascii "<?xml" ++ declaration ++ 0x3e :: rest ∧
          0x3e ∉ declaration ∧ rest.dropWhile Sniff.isSpace = text)

/-- The include resolves to `text`: its first `href` is a data URI of one of two types. -/
def Tag.Resolves (xml : Xml) (tag : Tag) (text : Bytes) : Prop :=
  isXincludeName tag.name ∧ ∃ encoded payload,
    (tag.FirstHref (ascii "data:text/xml;base64," ++ encoded) ∨
      tag.FirstHref (ascii "data:image/svg+xml;base64," ++ encoded)) ∧
    xml.base64Decode encoded = some payload ∧ Inlined payload text

theorem stripPrefix_eq_some {input pre rest : Bytes} :
    stripPrefix input pre = some rest ↔ input = pre ++ rest := by
  rw [stripPrefix]
  constructor
  · intro h
    split at h
    · rename_i hstarts
      obtain ⟨tail, rfl⟩ := Sniff.startsWith_iff.mp hstarts
      simpa using h
    · cases h
  · rintro rfl
    rw [if_pos (Sniff.startsWith_iff.mpr (List.prefix_append pre rest)), List.drop_left]

theorem stripPrefix_eq_none {input pre : Bytes} :
    stripPrefix input pre = none ↔ ¬ pre <+: input := by
  rw [Option.eq_none_iff_forall_ne_some]
  constructor
  · intro h ⟨rest, hrest⟩
    exact h rest (stripPrefix_eq_some.mpr hrest.symm)
  · intro h rest hrest
    exact h ⟨rest, (stripPrefix_eq_some.mp hrest).symm⟩

/-- The first occurrence of a byte splits the bytes around it. -/
theorem findIdx?_eq_some_iff_split {bytes : Bytes} {b : UInt8} {i : Nat} :
    bytes.findIdx? (· == b) = some i ↔
      ∃ before after, bytes = before ++ b :: after ∧ b ∉ before ∧ before.length = i := by
  constructor
  · intro h
    obtain ⟨hi, hb, hfirst⟩ := List.findIdx?_eq_some_iff_getElem.mp h
    refine ⟨bytes.take i, bytes.drop (i + 1), ?_, ?_, by simp; omega⟩
    · rw [← eq_of_beq hb, List.cons_getElem_drop_succ, List.take_append_drop]
    · intro hmem
      obtain ⟨j, hj, hbj⟩ := List.mem_take_iff_getElem.mp hmem
      exact hfirst j (by omega) (by simp [hbj])
  · rintro ⟨before, after, rfl, hb, rfl⟩
    have hnone : before.findIdx? (· == b) = none := by
      rw [List.findIdx?_eq_none_iff]
      intro x hx
      exact beq_eq_false_iff_ne.mpr (ne_of_mem_of_not_mem hx hb)
    simp [List.findIdx?_append, hnone, List.findIdx?_cons]

/-- What is left behind the first `>`. -/
theorem afterDeclaration_eq_some {bytes text : Bytes} :
    ((bytes.findIdx? (· == 0x3e)).bind fun close =>
        some (trimLeadingWhitespace (bytes.drop (close + 1)))) = some text ↔
      ∃ declaration rest, bytes = declaration ++ 0x3e :: rest ∧ 0x3e ∉ declaration ∧
        rest.dropWhile Sniff.isSpace = text := by
  simp only [Option.bind_eq_some_iff, findIdx?_eq_some_iff_split, Option.some.injEq]
  constructor
  · rintro ⟨_, ⟨declaration, rest, rfl, hfirst, rfl⟩, htext⟩
    refine ⟨declaration, rest, rfl, hfirst, ?_⟩
    simpa [trimLeadingWhitespace, Sniff.stripLeadingWhitespace] using htext
  · rintro ⟨declaration, rest, rfl, hfirst, htext⟩
    refine ⟨_, ⟨declaration, rest, rfl, hfirst, rfl⟩, ?_⟩
    simpa [trimLeadingWhitespace, Sniff.stripLeadingWhitespace] using htext

/-- The check of `str::from_utf8`. -/
theorem checkUtf8_eq_some {body text : Bytes} :
    (if ByteArray.validateUTF8 ⟨body.toArray⟩ then some body else none) = some text ↔
      (ByteArray.mk text.toArray).IsValidUTF8 ∧ body = text := by
  rw [← ByteArray.validateUTF8_eq_true_iff, Option.ite_none_right_eq_some, Option.some.injEq]
  constructor <;>
    · intro ⟨hvalid, heq⟩
      subst heq
      exact ⟨hvalid, rfl⟩

theorem stripSvgProlog_eq_some {payload text : Bytes} :
    stripSvgProlog payload = some text ↔ Inlined payload text := by
  have htrim : trimLeadingWhitespace payload = payload.dropWhile Sniff.isSpace := rfl
  rw [stripSvgProlog, Inlined]
  simp only [htrim, Option.bind_eq_bind]
  cases hprefix : stripPrefix (payload.dropWhile Sniff.isSpace) (ascii "<?xml") with
  | none =>
    have hno := stripPrefix_eq_none.mp hprefix
    rw [Option.bind_some, checkUtf8_eq_some]
    refine and_congr_right fun _ => ?_
    constructor
    · rintro rfl
      exact .inl ⟨rfl, hno⟩
    · rintro (⟨rfl, -⟩ | ⟨declaration, rest, hpayload, -, -⟩)
      · rfl
      · exact absurd ⟨_, by rw [hpayload, List.append_assoc]⟩ hno
  | some bytes =>
    have hpayload := stripPrefix_eq_some.mp hprefix
    dsimp only
    rw [← Option.bind_assoc, Option.bind_eq_some_iff]
    simp only [checkUtf8_eq_some, afterDeclaration_eq_some]
    constructor
    · rintro ⟨_, ⟨declaration, rest, rfl, hfirst, htext⟩, hvalid, rfl⟩
      exact ⟨hvalid, .inr ⟨declaration, rest, by rw [hpayload, List.append_assoc], hfirst, htext⟩⟩
    · rintro ⟨hvalid, ⟨rfl, hno⟩ | ⟨declaration, rest, hdeclared, hfirst, htext⟩⟩
      · exact absurd ⟨bytes, hpayload.symm⟩ hno
      · rw [hpayload, List.append_assoc] at hdeclared
        exact ⟨text, ⟨declaration, rest, List.append_cancel_left hdeclared, hfirst, htext⟩,
          hvalid, rfl⟩

theorem firstHref_iff {tag : Tag} {value : Bytes} :
    ((tag.attributes.filterMap id).find? fun attr => attr.1 == ascii "href") =
        some (ascii "href", value) ↔ tag.FirstHref value := by
  rw [List.find?_eq_some_iff_append, Tag.FirstHref]
  simp

/-- A value has one of the two prefixes at most. -/
theorem not_text_of_image (encoded : Bytes) :
    stripPrefix (ascii "data:image/svg+xml;base64," ++ encoded)
      (ascii "data:text/xml;base64,") = none := by
  rw [stripPrefix_eq_none]
  intro h
  have hprefix : ascii "data:text/xml;base64," <+: ascii "data:image/svg+xml;base64," :=
    List.prefix_of_prefix_length_le h (List.prefix_append _ _) (by decide)
  revert hprefix
  decide

theorem extractDataUriPayload_eq_some {xml : Xml} {tag : Tag} {payload : Bytes} :
    extractDataUriPayload xml tag = some payload ↔ ∃ encoded,
      (tag.FirstHref (ascii "data:text/xml;base64," ++ encoded) ∨
        tag.FirstHref (ascii "data:image/svg+xml;base64," ++ encoded)) ∧
      xml.base64Decode encoded = some payload := by
  constructor
  · intro h
    obtain ⟨⟨key, value⟩, hfind, h⟩ := Option.bind_eq_some_iff.mp h
    obtain ⟨encoded, hprefix, hdecode⟩ := Option.bind_eq_some_iff.mp h
    have hkey : key = ascii "href" := by simpa using List.find?_some hfind
    rw [hkey, firstHref_iff] at hfind
    refine ⟨encoded, ?_, hdecode⟩
    rcases Option.or_eq_some_iff.mp hprefix with hprefix | ⟨-, hprefix⟩
    · exact .inl (stripPrefix_eq_some.mp hprefix ▸ hfind)
    · exact .inr (stripPrefix_eq_some.mp hprefix ▸ hfind)
  · rintro ⟨encoded, hhref | hhref, hdecode⟩ <;>
      refine Option.bind_eq_some_iff.mpr ⟨_, firstHref_iff.mpr hhref,
        Option.bind_eq_some_iff.mpr ⟨encoded, ?_, hdecode⟩⟩
    · rw [stripPrefix_eq_some.mpr rfl, Option.some_or]
    · rw [not_text_of_image, Option.none_or, stripPrefix_eq_some]

theorem includeBody_eq_some {xml : Xml} {tag : Tag} {text : Bytes} :
    includeBody xml tag = some text ↔ tag.Resolves xml text := by
  rw [includeBody, Option.ite_none_right_eq_some, Option.bind_eq_some_iff, Tag.Resolves]
  simp only [extractDataUriPayload_eq_some, stripSvgProlog_eq_some]
  refine and_congr_right fun _ => ?_
  constructor
  · rintro ⟨payload, ⟨encoded, hhref, hdecode⟩, hinlined⟩
    exact ⟨encoded, payload, hhref, hdecode, hinlined⟩
  · rintro ⟨encoded, payload, hhref, hdecode, hinlined⟩
    exact ⟨payload, ⟨encoded, hhref, hdecode⟩, hinlined⟩

/-! ## Rewriting -/

theorem marked (xml : Xml) : Forest.Marked Event.mark (replacement xml) Event.start
    (fun tag => .endTag tag.name) Leaf.event where
  node tag := by
    simp only [Event.mark]
    cases isXincludeName tag.name <;> simp
  leaf a := by cases a <;> rfl
  replaced tag h := by
    rw [replacement, includeBody] at h
    cases hname : isXincludeName tag.name
    · simp [hname] at h
    · simp [Event.mark, hname]
  closing _ := rfl

@[simp] theorem output_inl {xml : Xml} (hwrites : ∀ e, xml.writeEvent e = some e.markup)
    (text : Bytes) : xml.output (.inl text) = text := by
  simp [Xml.output, Xml.written, hwrites, Event.markup]

@[simp] theorem output_inr {xml : Xml} (hwrites : ∀ e, xml.writeEvent e = some e.markup)
    (event : Event) : xml.output (.inr event) = event.markup := by
  simp [Xml.output, Xml.written, hwrites]

theorem flatMap_output {xml : Xml} (hwrites : ∀ e, xml.writeEvent e = some e.markup)
    (f : Forest Tag (Bytes ⊕ Leaf)) :
    (f.passed Event.start (fun tag => .endTag tag.name) Leaf.event).flatMap xml.output =
      serialise f := by
  induction f with
  | nil => rfl
  | leaf a f ih => cases a <;> simp [serialise, ih, hwrites]
  | node tag children f ihc ihf => simp [serialise, ihc, ihf, hwrites, Event.markup]

/-- The event pass over the stream of a document is the rewrite of its tree. -/
theorem fullPass_document {xml : Xml} {input : Bytes} {d : Document}
    (hread : readAll (xml.events input) = some d.events)
    (hwrites : ∀ e, xml.writeEvent e = some e.markup) :
    fullPass xml input =
      if 0 < (d.resolve xml).replacements then some (serialise (d.resolve xml)) else none := by
  have hpass : pass Event.mark (replacement xml) d.events =
      some ((d.resolve xml).passed Event.start (fun tag => .endTag tag.name) Leaf.event) :=
    Forest.pass_flatten (marked xml) d
  rw [fullPass_eq (by simp [hwrites]), hread, Option.bind_some, hpass, Option.bind_some,
    flatMap_output hwrites]
  simp only [Forest.any_passed]

/-- What `expand` makes of a document: the outermost includes that resolve become their
text, the others keep their tags, and nothing comes back when no include resolves. -/
theorem expand_rewrites (xml : Xml) (input : Bytes) (d : Document)
    (hprobe : containsXinclude input = true) (hread : readAll (xml.events input) = some d.events)
    (hwrites : ∀ e, xml.writeEvent e = some e.markup) :
    (∀ tag text, includeBody xml tag = some text ↔ tag.Resolves xml text) ∧
    expand xml input =
      if 0 < (d.resolve xml).replacements then some (serialise (d.resolve xml)) else none := by
  refine ⟨fun _ _ => includeBody_eq_some, ?_⟩
  rw [expand_eq, if_pos hprobe, fullPass_document hread hwrites]

/-- A tag with one attribute. -/
def Tag.ofHref (name href : String) : Tag where
  name := ascii name
  attributes := [some (ascii "href", ascii href)]
  content := ascii name ++ ascii " href=\"" ++ ascii href ++ ascii "\""

def svgTag : Tag := ⟨ascii "svg", [], ascii "svg"⟩

/-- The bytes of a document as it stands in a file. -/
def Document.source (d : Document) : Bytes := d.events.flatMap Event.markup

/-- The crates on the file of `d`, with the payloads it has. -/
def crates (d : Document) (payloads : List (Bytes × Bytes)) : Xml where
  events _ := d.events.map some ++ [some .eof]
  writeEvent event := some event.markup
  base64Decode encoded := payloads.lookup encoded

/-- An include that resolves inside one that does not. -/
def nestedDocument : Document :=
  .node svgTag
    (.node (.ofHref "xi:include" "icon.svg")
      (.leaf (.empty (.ofHref "xi:include" "data:text/xml;base64,PHN2Zy8+")) .nil) .nil) .nil

def nestedXml : Xml := crates nestedDocument [(ascii "PHN2Zy8+", ascii "<svg/>")]

theorem expand_rewrites_nestedDocument :
    (∀ tag text, includeBody nestedXml tag = some text ↔ tag.Resolves nestedXml text) ∧
    expand nestedXml nestedDocument.source =
      if 0 < (nestedDocument.resolve nestedXml).replacements then
        some (serialise (nestedDocument.resolve nestedXml))
      else none :=
  expand_rewrites nestedXml nestedDocument.source nestedDocument (by decide) rfl fun _ => rfl

/-- The whole payload of an include, where it is UTF-8. -/
def wholePayload (xml : Xml) : Event → Option Bytes
  | .start tag | .empty tag =>
    if isXincludeName tag.name then
      (extractDataUriPayload xml tag).filter fun payload => ByteArray.validateUTF8 ⟨payload.toArray⟩
    else none
  | .endTag _ | .text _ | .other _ | .eof => none

/-- The document with the whole payload in place of its outermost includes. -/
def Document.inlineWhole (xml : Xml) (d : Document) : Forest Tag (Bytes ⊕ Leaf) :=
  d.replaceOutermost (wholePayload xml ∘ Event.start) (wholePayload xml ∘ Leaf.event)

/-- Two payloads that begin with an XML declaration, the second one cut inside it. -/
def declaredDocument : Document :=
  .leaf (.empty (.ofHref "xi:include" "data:text/xml;base64,PD94bWw/PjxzdmcvPg=="))
    (.leaf (.empty (.ofHref "xi:include" "data:text/xml;base64,PD94bWw=")) .nil)

def declaredXml : Xml :=
  crates declaredDocument
    [(ascii "PD94bWw/PjxzdmcvPg==", ascii "<?xml?><svg/>"), (ascii "PD94bWw=", ascii "<?xml")]

/-- The first include is replaced without its declaration, the second one stays. -/
theorem declaredDocument_not_whole :
    containsXinclude declaredDocument.source = true ∧
    readAll (declaredXml.events declaredDocument.source) = some declaredDocument.events ∧
    (∀ e, declaredXml.writeEvent e = some e.markup) ∧
    expand declaredXml declaredDocument.source =
      some (ascii "<svg/><xi:include href=\"data:text/xml;base64,PD94bWw=\"/>") ∧
    ¬ expand declaredXml declaredDocument.source =
      if 0 < (declaredDocument.inlineWhole declaredXml).replacements then
        some (serialise (declaredDocument.inlineWhole declaredXml))
      else none := by
  have hprobe : containsXinclude declaredDocument.source = true := by decide +kernel
  have hread : readAll (declaredXml.events declaredDocument.source) =
      some declaredDocument.events := rfl
  have hwrites (e : Event) : declaredXml.writeEvent e = some e.markup := rfl
  have hexpand : expand declaredXml declaredDocument.source =
      some (ascii "<svg/><xi:include href=\"data:text/xml;base64,PD94bWw=\"/>") := by
    rw [expand_eq, if_pos hprobe, fullPass_document hread hwrites]
    decide
  refine ⟨hprobe, hread, hwrites, hexpand, ?_⟩
  rw [hexpand]
  decide

end GlycinNg.Xinclude
