import Mathlib.Tactic.Common

/-! Event streams. The parser of `text/event-stream` reads a character at a time, and it reads back
the fields and the comments that are written to it. -/
namespace EventStreams

abbrev Text := List Char

structure Message where
  id : Text
  event : Text
  data : Text
  deriving DecidableEq

/-- The line that has begun, whether a carriage return has ended the one before, and the buffers. -/
structure Parser where
  line : Text := []
  returned : Bool := false
  lastId : Text := []
  event : Text := []
  data : List Text := []
  deriving DecidableEq

namespace Parser

/-- A parser between two messages. -/
def idle (lastId : Text) : Parser := { lastId := lastId }

def field (p : Parser) (name value : Text) : Parser :=
  if name = "event".toList then { p with event := value }
  else if name = "data".toList then { p with data := p.data ++ [value] }
  else if name = "id".toList then
    if '\x00' ∈ value then p else { p with lastId := value }
  else p

/-- A blank line. Without data there is no message. -/
def dispatch (p : Parser) : Parser × List Message :=
  ({ p with event := [], data := [] },
    if p.data.isEmpty then [] else [⟨p.lastId, p.event, ['\n'].intercalate p.data⟩])

/-- What follows the colon, without one space. -/
def fieldValue (rest : Text) : Text :=
  match rest with
  | ':' :: ' ' :: value => value
  | ':' :: value => value
  | _ => []

/-- A line ends. A comment begins with a colon. -/
def endLine (p : Parser) : Parser × List Message :=
  let next := { p with line := [] }
  match p.line with
  | [] => next.dispatch
  | ':' :: _ => (next, [])
  | line => (next.field (line.takeWhile (· ≠ ':')) (fieldValue (line.dropWhile (· ≠ ':'))), [])

/-- A line ends with a line feed, with a carriage return, or with both. -/
def char (p : Parser) (c : Char) : Parser × List Message :=
  if c = '\n' then
    if p.returned then ({ p with returned := false }, []) else p.endLine
  else if c = '\r' then ({ p.endLine.1 with returned := true }, p.endLine.2)
  else ({ p with line := p.line ++ [c], returned := false }, [])

def feed : Parser → Text → Parser × List Message
  | p, [] => (p, [])
  | p, c :: rest => (((p.char c).1.feed rest).1, (p.char c).2 ++ ((p.char c).1.feed rest).2)

end Parser

/-- The messages of a stream. A message without its blank line is incomplete. -/
def parse (text : Text) : List Message := (Parser.feed {} text).2

/-- No line ends within the text. -/
def Unbroken (text : Text) : Prop := '\n' ∉ text ∧ '\r' ∉ text

instance (text : Text) : Decidable (Unbroken text) :=
  inferInstanceAs (Decidable ('\n' ∉ text ∧ '\r' ∉ text))

/-- `name: value`. -/
def fieldLine (name value : Text) : Text := name ++ ':' :: ' ' :: value ++ ['\n']

inductive Frame where
  | message (m : Message)
  | comment (text : Text)

namespace Frame

def text : Frame → Text
  | .message m =>
      fieldLine "id".toList m.id ++ fieldLine "event".toList m.event ++
        fieldLine "data".toList m.data ++ ['\n']
  | .comment text => ':' :: text ++ ['\n', '\n']

def message? : Frame → Option Message
  | .message m => some m
  | .comment _ => none

/-- Every field fills one line, and the id holds no null character. -/
def Plain : Frame → Prop
  | .message m => (Unbroken m.id ∧ '\x00' ∉ m.id) ∧ Unbroken m.event ∧ Unbroken m.data
  | .comment text => Unbroken text

end Frame

namespace Parser
variable {p : Parser}

theorem feed_append (p : Parser) (a b : Text) :
    p.feed (a ++ b) = (((p.feed a).1.feed b).1, (p.feed a).2 ++ ((p.feed a).1.feed b).2) := by
  induction a generalizing p with
  | nil => rfl
  | cons c a ih =>
      rw [List.cons_append, feed, ih, feed, List.append_assoc]

/-- Within a line the parser only collects. -/
theorem feed_unbroken (open' : p.returned = false) {text : Text} (unbroken : Unbroken text) :
    p.feed text = ({ p with line := p.line ++ text }, []) := by
  induction text generalizing p with
  | nil => simp [feed]
  | cons c text ih =>
      obtain ⟨feed', return'⟩ := unbroken
      rw [List.mem_cons, not_or] at feed' return'
      have collected : p.char c = ({ p with line := p.line ++ [c], returned := false }, []) := by
        rw [char, if_neg (Ne.symm feed'.1), if_neg (Ne.symm return'.1)]
      rw [feed, collected, ih rfl ⟨feed'.2, return'.2⟩, open']
      simp

/-- A line of a parser that stands at its beginning. -/
theorem feed_line (start : p.line = []) (open' : p.returned = false) {text : Text}
    (unbroken : Unbroken text) :
    p.feed (text ++ ['\n']) = Parser.endLine { p with line := text } := by
  rw [feed_append, feed_unbroken open' unbroken, start, List.nil_append]
  simp [feed, char, open']

theorem feed_blank (start : p.line = []) (open' : p.returned = false) :
    p.feed ['\n'] = p.dispatch := by
  have blank : Unbroken [] := by decide
  have ended := feed_line start open' blank
  obtain ⟨line, returned, lastId, event, data⟩ := p
  cases start
  exact ended

theorem feed_fieldLine (start : p.line = []) (open' : p.returned = false) (name : Text)
    {value : Text} (named : name ≠ []) (plain : ':' ∉ name) (unbroken : Unbroken name)
    (whole : Unbroken value) : p.feed (fieldLine name value) = (p.field name value, []) := by
  have line : Unbroken (name ++ ':' :: ' ' :: value) := by
    simp [Unbroken, unbroken.1, unbroken.2, whole.1, whole.2]
  have other : ∀ c ∈ name, decide (c ≠ ':') = true := by
    intro c among
    refine decide_eq_true fun same => plain ?_
    rwa [← same]
  have before : (name ++ ':' :: ' ' :: value).takeWhile (· ≠ ':') = name := by
    rw [List.takeWhile_append_of_pos other]
    simp
  have behind : (name ++ ':' :: ' ' :: value).dropWhile (· ≠ ':') = ':' :: ' ' :: value := by
    rw [List.dropWhile_append_of_pos other]
    simp
  rw [fieldLine, feed_line start open' line, endLine]
  obtain ⟨begun, returned, lastId, event, data⟩ := p
  cases start
  cases name with
  | nil => exact absurd rfl named
  | cons c name =>
      have first : c ≠ ':' := by
        rintro rfl
        exact plain List.mem_cons_self
      simp only [List.cons_append] at before behind ⊢
      split
      next empty => contradiction
      next rest same => exact absurd (List.cons.inj same).1 first
      next => rw [before, behind]; rfl

theorem feed_cons {q : Parser} {out : List Message} {a : Text} (first : p.feed a = (q, out))
    (b : Text) : p.feed (a ++ b) = ((q.feed b).1, out ++ (q.feed b).2) := by
  rw [feed_append, first]

theorem feed_fields (lastId : Text) {m : Message} (plain : (Frame.message m).Plain) :
    (idle lastId).feed (fieldLine "id".toList m.id ++ fieldLine "event".toList m.event ++
      fieldLine "data".toList m.data) = ({ idle m.id with event := m.event, data := [m.data] }, []) := by
  obtain ⟨⟨id, noNull⟩, event, data⟩ := plain
  have first : (idle lastId).feed (fieldLine "id".toList m.id) = (idle m.id, []) := by
    rw [feed_fieldLine rfl rfl _ (by decide) (by decide) (by decide) id]
    simp [Parser.field, noNull, idle]
  have second : (idle m.id).feed (fieldLine "event".toList m.event) =
      ({ idle m.id with event := m.event }, []) :=
    feed_fieldLine rfl rfl _ (by decide) (by decide) (by decide) event
  have third : Parser.feed { idle m.id with event := m.event } (fieldLine "data".toList m.data) =
      ({ idle m.id with event := m.event, data := [m.data] }, []) :=
    feed_fieldLine rfl rfl _ (by decide) (by decide) (by decide) data
  rw [List.append_assoc, feed_cons first, feed_cons second, third]
  rfl

/-- The parser reads back a message, and it keeps nothing of it but the id. -/
theorem feed_message (lastId : Text) {m : Message} (plain : (Frame.message m).Plain) :
    (idle lastId).feed (Frame.message m).text = (idle m.id, [m]) := by
  have last : Parser.feed { idle m.id with event := m.event, data := [m.data] } ['\n'] =
      (idle m.id, [m]) := by
    rw [feed_blank rfl rfl]
    simp [dispatch, idle]
  rw [Frame.text, feed_cons (feed_fields lastId plain), last]
  rfl

theorem feed_commentLine (lastId : Text) {text : Text} (plain : (Frame.comment text).Plain) :
    (idle lastId).feed (':' :: text ++ ['\n']) = (idle lastId, []) := by
  obtain ⟨feed', return'⟩ := plain
  have whole : Unbroken (':' :: text) := by
    simp [Unbroken, feed', return']
  rw [feed_line rfl rfl whole]
  rfl

theorem feed_comment (lastId : Text) {text : Text} (plain : (Frame.comment text).Plain) :
    (idle lastId).feed (Frame.comment text).text = (idle lastId, []) := by
  have blank : (idle lastId).feed ['\n'] = (idle lastId, []) := feed_blank rfl rfl
  have same : (Frame.comment text).text = (':' :: text ++ ['\n']) ++ ['\n'] := by
    simp [Frame.text]
  rw [same, feed_cons (feed_commentLine lastId plain), blank]
  rfl

/-- A text that brings no message has no part that does. -/
theorem feed_silent {q : Parser} {part text : Text} (silent : p.feed text = (q, []))
    (inside : part <+: text) : (p.feed part).2 = [] := by
  obtain ⟨rest, rfl⟩ := inside
  have both := congrArg Prod.snd ((feed_append p part rest).symm.trans silent)
  exact (List.append_eq_nil_iff.mp both).1

/-- A frame that is cut brings no message. -/
theorem feed_part (lastId : Text) {frame : Frame} (plain : frame.Plain) {part : Text}
    (inside : part <+: frame.text) (cut : part ≠ frame.text) :
    ((idle lastId).feed part).2 = [] := by
  have shorter {text : Text} (same : frame.text = text ++ ['\n']) : part <+: text := by
    rw [same] at inside cut
    exact (List.prefix_concat_iff.mp inside).resolve_left cut
  cases frame with
  | message m => exact feed_silent (feed_fields lastId plain) (shorter rfl)
  | comment text =>
      refine feed_silent (feed_commentLine lastId plain) (shorter ?_)
      simp [Frame.text]

end Parser

/-- A stream of frames is read back, whatever its messages and comments hold within their lines. -/
theorem feed_frames (lastId : Text) {frames : List Frame} (plain : ∀ frame ∈ frames, frame.Plain) :
    ((Parser.idle lastId).feed (frames.flatMap Frame.text)).2 =
      frames.filterMap Frame.message? := by
  induction frames generalizing lastId with
  | nil => rfl
  | cons frame frames ih =>
      obtain ⟨first, rest⟩ := List.forall_mem_cons.mp plain
      rw [List.flatMap_cons]
      cases frame with
      | message m =>
          rw [Parser.feed_cons (Parser.feed_message lastId first), ih m.id rest]
          rfl
      | comment text =>
          rw [Parser.feed_cons (Parser.feed_comment lastId first), ih lastId rest]
          rfl

theorem parse_frames {frames : List Frame} (plain : ∀ frame ∈ frames, frame.Plain) :
    parse (frames.flatMap Frame.text) = frames.filterMap Frame.message? := feed_frames [] plain

/-- A stream that is cut anywhere brings the first of its messages. -/
theorem feed_prefix (lastId : Text) {frames : List Frame} (plain : ∀ frame ∈ frames, frame.Plain)
    {text : Text} (inside : text <+: frames.flatMap Frame.text) :
    ((Parser.idle lastId).feed text).2 <+: frames.filterMap Frame.message? := by
  induction frames generalizing lastId text with
  | nil =>
      rw [List.prefix_nil.mp inside]
      exact List.prefix_rfl
  | cons frame frames ih =>
      obtain ⟨first, rest⟩ := List.forall_mem_cons.mp plain
      rw [List.flatMap_cons] at inside
      by_cases whole : frame.text <+: text
      · obtain ⟨later, rfl⟩ := whole
        rw [List.prefix_append_right_inj] at inside
        cases frame with
        | message m =>
            rw [Parser.feed_cons (Parser.feed_message lastId first), List.filterMap_cons]
            exact List.prefix_append_right_inj [m] |>.mpr (ih m.id rest inside)
        | comment text =>
            rw [Parser.feed_cons (Parser.feed_comment lastId first), List.filterMap_cons]
            exact ih lastId rest inside
      · have part := (List.prefix_or_prefix_of_prefix inside
          (List.prefix_append frame.text _)).resolve_right whole
        rw [Parser.feed_part lastId first part fun same => whole (same ▸ List.prefix_rfl)]
        exact List.nil_prefix

end EventStreams
