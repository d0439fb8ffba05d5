import Flowchart.Json

/-! # Settings of a layout

Nine numbers give the sizes and distances of a drawing.  Settings are valid when the sizes are
positive, the distances not negative and a level is at least as high as a node
(`Settings.validate`); `Settings.ofValues` makes valid settings from the values that a caller
gives. -/

namespace Flowchart

/-- Sizes and distances of a drawing, in drawing units. -/
structure Settings where
  nodeWidth : Number
  nodeHeight : Number
  levelHeight : Number
  horizontalGap : Number
  canvasWidth : Number
  topMargin : Number
  minMargin : Number
  fallbackX : Number
  fallbackY : Number
deriving DecidableEq, Repr

namespace Settings

/-- The settings that hold where nothing else is given. -/
def standard : Settings where
  nodeWidth := 120
  nodeHeight := 60
  levelHeight := 150
  horizontalGap := 100
  canvasWidth := 800
  topMargin := 50
  minMargin := 50
  fallbackX := 100
  fallbackY := 100

instance : Inhabited Settings := ⟨standard⟩

/-- The names of the nine settings. -/
inductive Field
  | nodeWidth
  | nodeHeight
  | levelHeight
  | horizontalGap
  | canvasWidth
  | topMargin
  | minMargin
  | fallbackX
  | fallbackY
deriving DecidableEq, Repr

namespace Field

def name : Field → String
  | nodeWidth => "node_width"
  | nodeHeight => "node_height"
  | levelHeight => "level_height"
  | horizontalGap => "horizontal_gap"
  | canvasWidth => "canvas_width"
  | topMargin => "top_margin"
  | minMargin => "min_margin"
  | fallbackX => "fallback_x"
  | fallbackY => "fallback_y"

/-- All settings, in the order in which they are checked. -/
def all : List Field :=
  [nodeWidth, nodeHeight, levelHeight, horizontalGap, canvasWidth, topMargin, minMargin,
   fallbackX, fallbackY]

/-- The settings that are greater than zero. -/
def positive : List Field := [nodeWidth, nodeHeight, levelHeight, canvasWidth]

def nonnegative : List Field := [horizontalGap, topMargin, minMargin]

def ofName? (name : String) : Option Field := all.find? fun field => field.name == name

end Field

def get (s : Settings) : Field → Number
  | .nodeWidth => s.nodeWidth
  | .nodeHeight => s.nodeHeight
  | .levelHeight => s.levelHeight
  | .horizontalGap => s.horizontalGap
  | .canvasWidth => s.canvasWidth
  | .topMargin => s.topMargin
  | .minMargin => s.minMargin
  | .fallbackX => s.fallbackX
  | .fallbackY => s.fallbackY

/-- Settings with one value replaced. -/
def set (s : Settings) (value : Number) : Field → Settings
  | .nodeWidth => { s with nodeWidth := value }
  | .nodeHeight => { s with nodeHeight := value }
  | .levelHeight => { s with levelHeight := value }
  | .horizontalGap => { s with horizontalGap := value }
  | .canvasWidth => { s with canvasWidth := value }
  | .topMargin => { s with topMargin := value }
  | .minMargin => { s with minMargin := value }
  | .fallbackX => { s with fallbackX := value }
  | .fallbackY => { s with fallbackY := value }

/-- The ways in which settings are not valid. -/
inductive Fault
  | notNumber (field : Field)
  | notPositive (field : Field)
  | negative (field : Field)
  | levelTooLow
deriving DecidableEq, Repr

def Fault.message : Fault → String
  | notNumber field => field.name ++ " must be a number."
  | notPositive field => field.name ++ " must be greater than zero."
  | negative field => field.name ++ " must not be negative."
  | levelTooLow => "level_height must be greater than or equal to node_height."

/-- The first fault of settings, in the order of the checks. -/
def fault? (s : Settings) : Option Fault :=
  ((Field.positive.find? fun field => (s.get field).le 0).map Fault.notPositive) <|>
  ((Field.nonnegative.find? fun field => (s.get field).lt 0).map Fault.negative) <|>
  if s.levelHeight.lt s.nodeHeight then some .levelTooLow else none

/-- Settings that have no fault. -/
def validate (s : Settings) : Except Fault Settings :=
  match s.fault? with
  | some fault => .error fault
  | none => .ok s

/-- Takes the values that are given, which must be numbers, field by field. -/
def takeValues (given : Field → Option Json) : List Field → Settings → Except Fault Settings
  | [], s => .ok s
  | field :: rest, s =>
    match given field with
    | none => takeValues given rest s
    | some (.number value) => takeValues given rest (s.set value field)
    | some _ => .error (.notNumber field)

/-- Valid settings from the values that are given, the standard ones elsewhere. -/
def ofValues (given : Field → Option Json) : Except Fault Settings := do
  validate (← takeValues given Field.all standard)

/-- The distance from one column to the next. -/
def columnStep (s : Settings) : Except ArithmeticError Number := s.nodeWidth.add s.horizontalGap

end Settings

end Flowchart
