import LiveTemplate.Document.Basic
import LiveTemplate.Template.Error
import LiveTemplate.Template.NameCase
import LiveTemplate.Template.Placeholder

namespace LiveTemplate.Template

/-- A part of a tracked text: the bytes of fixed characters in its pattern, or the place of a variable
among all variables. -/
inductive Piece where
  | literal (start stop : Nat)
  | slot (place : Nat)
  deriving DecidableEq, Repr

structure TrackedText where
  node : NodeId
  pattern : Text
  pieces : List Piece
  deriving DecidableEq, Repr

structure Variable where
  value : Text := []
  texts : List Nat := []
  deriving DecidableEq, Repr

structure Tracker where
  nameCase : NameCase
  texts : List TrackedText := []
  /-- Variables by normalized name, in the order in which they first come. -/
  vars : Table Variable := {}
  deriving DecidableEq, Repr

def TrackedText.hasPlaceholders (t : TrackedText) : Bool :=
  t.pieces.any fun
    | .slot _ => true
    | .literal _ _ => false

/-- Notes that a text mentions the variable; two mentions in one text count once. -/
def Variable.mentionedIn (v : Variable) (text : Nat) : Variable :=
  if v.texts.getLast? = some text then v else { v with texts := v.texts ++ [text] }

def mention (text : Nat) (vars : Table Variable) (name : Text) : Table Variable :=
  vars.insert name (((vars.get? name).getD {}).mentionedIn text)

structure Noted where
  vars : Table Variable
  pieces : List Piece := []
  offset : Nat := 0

def Noted.note (nameCase : NameCase) (text : Nat) (n : Noted) (segment : Part) : Noted :=
  let offset := n.offset + segment.byteLength
  match segment with
  | .literal _ => { n with pieces := n.pieces ++ [.literal n.offset offset], offset }
  | .placeholder name =>
    let key := nameCase.normalize name
    { vars := mention text n.vars key
      pieces := n.pieces ++ [.slot (n.vars.keys.idxOf key)]
      offset }

namespace Tracker

/-- Tracks one more node; one that is no text node counts as an empty text. -/
def track (d : Document) (k : Tracker) (node : NodeId) : Tracker :=
  let pattern := (d.text? node).getD []
  let noted := (segments pattern).foldl (Noted.note k.nameCase k.texts.length) { vars := k.vars }
  { k with texts := k.texts ++ [{ node, pattern, pieces := noted.pieces }], vars := noted.vars }

def ofNodes (d : Document) (nodes : List NodeId) (nameCase : NameCase) : Tracker :=
  nodes.foldl (track d) { nameCase }

def get? (k : Tracker) (name : Text) : Option Variable :=
  k.vars.get? (k.nameCase.normalize name)

def contains (k : Tracker) (name : Text) : Bool :=
  (k.get? name).isSome

def set? (k : Tracker) (name value : Text) : Option Tracker :=
  (k.get? name).map fun v =>
    { k with vars := k.vars.insert (k.nameCase.normalize name) { v with value } }

/-- Stores values in their order; the first name that is refused ends it, and what was stored before
it stays. -/
def setAll (k : Tracker) : List (Text × Text) → Tracker × Except Error Unit
  | [] => (k, .ok ())
  | (name, value) :: more =>
    match k.set? name value with
    | some next => next.setAll more
    | none => (k, .error (.invalidVariable name))

def valueAt (k : Tracker) (place : Nat) : Text :=
  ((k.vars.entries[place]?).map (·.2.value)).getD []

def renderPiece (k : Tracker) (pattern : Text) : Piece → Text
  | .literal start stop => (pattern.slice? start stop).getD []
  | .slot place => k.valueAt place

/-- The pattern with the current values in the places of their variables; values are never
searched for placeholders themselves. -/
def render (k : Tracker) (t : TrackedText) : Text :=
  t.pieces.flatMap (k.renderPiece t.pattern)

def write (k : Tracker) (t : TrackedText) (d : Document) : Document × Nat :=
  if d.text? t.node = some (k.render t) then (d, 0)
  else ((d.setText? t.node (k.render t)).getD d, 1)

def apply (k : Tracker) (d : Document) : Document × Nat :=
  k.texts.foldl (fun (d, writes) t =>
    let (d, written) := k.write t d
    (d, writes + written)) (d, 0)

end Tracker

end LiveTemplate.Template
