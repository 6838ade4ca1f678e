import GlycinNg.Sniff

/-! # The `xi:include` pass over SVG inputs

`formats/svg/xinclude.rs`. The XML tokeniser and writer of `quick-xml` and the
base64 decoder are inputs; which elements are replaced, by what, and what is
swallowed with them is the code's. -/
namespace GlycinNg.Xinclude
open Rust

/-- A start tag: its name, its attributes (`none` for one that does not parse)
and the bytes between the angle brackets. -/
structure Tag where
  name : Bytes
  attributes : List (Option (Bytes × Bytes))
  content : Bytes

/-- `quick_xml::events::Event`. -/
inductive Event where
  | start (tag : Tag)
  | endTag (name : Bytes)
  | empty (tag : Tag)
  | text (escaped : Bytes)
  | other (content : Bytes)
  | eof

/-- The crates behind the pass. -/
structure Xml where
  /-- What successive `read_event` calls answer, `none` for an error, until the
  input is at its end. -/
  events : Bytes → List (Option Event)
  /-- The bytes an event is written as, `none` for an error. -/
  writeEvent : Event → Option Bytes
  base64Decode : Bytes → Option Bytes

/-- `memchr_subseq`. -/
def memchrSubseq (hay needle : Bytes) : Bool :=
  if needle.isEmpty || decide (hay.length < needle.length) then needle.isEmpty
  else
    (List.range (hay.length - needle.length + 1)).any fun i =>
      (hay.drop i).take needle.length == needle

def containsXinclude (input : Bytes) : Bool := memchrSubseq input (ascii "xi:include")

def isXincludeName (name : Bytes) : Bool := name == ascii "xi:include" || name == ascii "include"

/-- `strip_prefix`. -/
def stripPrefix (input pre : Bytes) : Option Bytes :=
  if Sniff.startsWith input pre then some (input.drop pre.length) else none

/-- The payload of the first `href` attribute. -/
def extractDataUriPayload (xml : Xml) (tag : Tag) : Option Bytes := do
  let (_, value) ← (tag.attributes.filterMap id).find? fun attr => attr.1 == ascii "href"
  let payload ← (stripPrefix value (ascii "data:text/xml;base64,")).or
    (stripPrefix value (ascii "data:image/svg+xml;base64,"))
  xml.base64Decode payload

def trimLeadingWhitespace (b : Bytes) : Bytes := Sniff.stripLeadingWhitespace b

/-- `strip_svg_prolog`: the text after a leading XML declaration. -/
def stripSvgProlog (payload : Bytes) : Option Bytes := do
  let trimmed := trimLeadingWhitespace payload
  let afterProlog ←
    match stripPrefix trimmed (ascii "<?xml") with
    | some rest => do
      let close ← rest.findIdx? (· == 0x3e)
      some (trimLeadingWhitespace (rest.drop (close + 1)))
    | none => some trimmed
  if ByteArray.validateUTF8 ⟨afterProlog.toArray⟩ then some afterProlog else none

/-- The replacement of an include element, where there is one. -/
def includeBody (xml : Xml) (tag : Tag) : Option Bytes :=
  if isXincludeName tag.name then (extractDataUriPayload xml tag).bind stripSvgProlog else none

/-- Skip to the end tag that closes `depth` open includes; the rest of the
events, or `none` where the pass gives up. The counter of the source is an `i32`,
which only a document with `2 ^ 31` open includes, 19 GB of tags, would overflow. -/
def swallow : (depth : Nat) → List (Option Event) → Option (List (Option Event))
  | 0, rest => some rest
  | _ + 1, [] => none
  | _ + 1, none :: _ => none
  | depth + 1, some event :: rest =>
    match event with
    | .start tag => swallow (if isXincludeName tag.name then depth + 2 else depth + 1) rest
    | .endTag name => swallow (if isXincludeName name then depth else depth + 1) rest
    | .eof => none
    | .empty _ | .text _ | .other _ => swallow (depth + 1) rest

theorem swallow_length {depth : Nat} {events rest : List (Option Event)}
    (h : swallow depth events = some rest) : rest.length ≤ events.length := by
  induction events generalizing depth with
  | nil => cases depth <;> simp_all [swallow]
  | cons event events ih =>
    cases depth with
    | zero => simp_all [swallow]
    | succ depth =>
      match event with
      | none | some .eof => simp [swallow] at h
      | some (.start _) | some (.endTag _) | some (.empty _) | some (.text _) | some (.other _) =>
        rw [swallow] at h
        exact Nat.le_succ_of_le (ih h)

/-- The event loop: the output so far and whether anything was expanded. -/
def rewrite (xml : Xml) (events : List (Option Event)) (out : Bytes) (expandedAny : Bool) :
    Option (Bytes × Bool) :=
  match events with
  | [] => some (out, expandedAny)
  | none :: _ => none
  | some event :: rest =>
    match event with
    | .eof => some (out, expandedAny)
    | .empty tag =>
      match includeBody xml tag with
      | some body => do
        let written ← xml.writeEvent (.text body)
        rewrite xml rest (out ++ written) true
      | none => do
        let written ← xml.writeEvent (.empty tag)
        rewrite xml rest (out ++ written) expandedAny
    | .start tag =>
      match includeBody xml tag with
      | some body =>
        match xml.writeEvent (.text body), h : swallow 1 rest with
        | some written, some rest' =>
          have := swallow_length h
          rewrite xml rest' (out ++ written) true
        | _, _ => none
      | none => do
        let written ← xml.writeEvent (.start tag)
        rewrite xml rest (out ++ written) expandedAny
    | event => do
      let written ← xml.writeEvent event
      rewrite xml rest (out ++ written) expandedAny
termination_by events.length

/-- `xinclude::expand`. -/
def expand (xml : Xml) (input : Bytes) : Option Bytes :=
  if !containsXinclude input then none
  else
    match rewrite xml (xml.events input) [] false with
    | some (out, true) => some out
    | _ => none

end GlycinNg.Xinclude
