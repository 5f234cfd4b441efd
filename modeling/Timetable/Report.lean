import Timetable.Json.Decode
import Timetable.Store.Seed
import Timetable.View

/-!
# The report on a plan file

A plan file can be checked offline: its sections course by course with their demand, the clashes,
and the probability of the whole schedule. Colours are terminal escape sequences.
-/

namespace Timetable.Report

/-- A way to stress a part of the report. -/
inductive Style where
  | bold | red | orange | yellow | green | redBold
  deriving DecidableEq, Repr

/-- The parameters of the escape sequence that starts a style. -/
def Style.code : Style → String
  | bold => "1"
  | red => "31"
  | orange => "38;5;208"
  | yellow => "33"
  | green => "32"
  | redBold => "1;31"

/-- The style of a band's label. -/
def bandStyle : DemandBand → Style
  | .low => .green
  | .moderate => .yellow
  | .high => .orange
  | .overCapacity => .red

/-- A text in a style, when styles are on. -/
def paint (color : Bool) (style : Style) (s : String) : String :=
  if color then "\x1b[" ++ style.code ++ "m" ++ s ++ "\x1b[0m" else s

/-- The blanks that bring a text to a width in characters. -/
def padding (width : Nat) (s : String) : String :=
  String.ofList (List.replicate (width - s.length) ' ')

/-- A text with blanks behind it. -/
def left (width : Nat) (s : String) : String := s ++ padding width s

/-- A text with blanks before it. -/
def right (width : Nat) (s : String) : String := padding width s ++ s

/-- The name of a section in a clash: its course and its own code, or its id when the plan has no
such section. -/
def sectionName (p : Plan) (id : Int) : String :=
  match p.section? id with
  | some e => e.course.code ++ " " ++ e.chosen.code
  | none => toString id

/-- The line of a section. -/
def sectionLine (color : Bool) (report : ConflictReport) (s : Section) : String :=
  let band := Demand.band Float s
  let meets := match s.meeting with
    | some m => m.write
    | none => "unscheduled"
  let capacity := match s.capacity with
    | some c => toString c
    | none => "open"
  "   " ++ (if s.selected then "*" else " ") ++ " " ++ left 6 s.code ++ " " ++ left 26 meets ++ " "
    ++ right 4 (toString s.demand) ++ "/" ++ left 3 capacity ++ " "
    ++ paint color (bandStyle band) (left 16 band.label) ++ " "
    ++ right 4 (Demand.percent (Demand.probability s))
    ++ (if report.isClashing s.id then "  " ++ paint color .redBold "CLASH" else "") ++ "\n"

/-- The lines of a type group. -/
def groupLines (color : Bool) (report : ConflictReport) (group : String × List Section) : String :=
  "  " ++ group.1 ++ "\n" ++ String.join (group.2.map (sectionLine color report))

/-- The lines of a course. -/
def courseLines (color : Bool) (report : ConflictReport) (c : Course) : String :=
  "\n" ++ paint color .bold c.code ++ "  " ++ c.title.getD "" ++ "\n"
    ++ String.join (c.typeGroups.map (groupLines color report))

/-- The line of a clash. -/
def clashLine (p : Plan) (c : Clash) : String :=
  "  " ++ c.day.name ++ ": " ++ sectionName p c.first ++ " overlaps " ++ sectionName p c.second
    ++ "\n"

/-- The report on a plan with its clashes. -/
def render (color : Bool) (p : Plan) (report : ConflictReport) : String :=
  let term := match p.term with
    | some t => "Term " ++ paint color .bold t ++ "\n"
    | none => ""
  let clashes :=
    if report.hasConflict then
      "\n" ++ paint color .redBold "Conflicts" ++ "\n" ++ String.join (report.clashes.map (clashLine p))
    else "\n" ++ paint color .green "No conflicts" ++ "\n"
  let probability := Demand.percent (Demand.scheduleProbability (p.selection.map (·.chosen)))
  term ++ String.join (p.courses.map (courseLines color report)) ++ clashes
    ++ "Schedule probability: " ++ paint color .bold probability ++ " ("
    ++ toString p.selection.length ++ " sections selected)\n"

/-- The report on a plan as JSON: its view, with nothing on its way. -/
def renderJson (p : Plan) (report : ConflictReport) : String :=
  (PlanView.of p report ⟨.ready, none, fun _ _ => false⟩).toJson.pretty ++ "\n"

/-- Checks the content of the plan file at `path`. Gives the report, or why there is none. -/
def check (path : String) (file : FileContent) (json : Bool) : Except String String :=
  match file.text with
  | .error why => .error ("Failed to read " ++ path ++ ": " ++ why)
  | .ok body =>
    match Json.decode Json.planLayout.read body with
    | .error e => .error ("Failed to parse plan file " ++ path ++ ": " ++ e.message)
    | .ok r =>
      let p := Plan.ofRecord r
      .ok (if json then renderJson p p.conflicts else render false p p.conflicts)

end Timetable.Report
