import Itou.Lib.Texts
import Itou.Lib.Words
import Mathlib.Data.Char
import Mathlib.Data.List.Infix
import Mathlib.Data.List.Lex
import Mathlib.Logic.Function.Basic

/-!
# Opening hours

`parse_osm_hours` reads the opening hours that the sources give in the format of OpenStreetMap, and
`format_osm_hours` shows them for each day of the week.
-/

namespace Itou.Insertion.OpeningHours

open Itou.Lib

/-! ## Tables -/

/-- What the regular expressions call a word character and a digit, with the value of the digit. -/
structure CharClasses where
  isWord : Char → Bool
  digit : Char → Option Nat
  isWord_ascii : ∀ c, c.val < 128 → isWord c = (c.isAlphanum || c = '_')
  digit_ascii : ∀ c, c.val < 128 → digit c = if c.isDigit then some (c.toNat - '0'.toNat) else none

/-- The classes of ASCII alone. -/
def CharClasses.ascii : CharClasses where
  isWord c := c.isAlphanum || c = '_'
  digit c := if c.isDigit then some (c.toNat - '0'.toNat) else none
  isWord_ascii _ _ := rfl
  digit_ascii _ _ := rfl

/-- The exceptions that `format_osm_hours` catches. -/
inductive Error where
  | keyError
  | valueError
  deriving DecidableEq

/-- `dictionary[key]`. -/
def getItem {α : Type} (dictionary : List (List Char × α)) (key : List Char) : Except Error α :=
  match dictionary.lookup key with
  | some value => .ok value
  | none => .error .keyError

/-- `DAYS`. -/
def days : List (List Char × Fin 7) :=
  [("Mo".toList, 0), ("Tu".toList, 1), ("We".toList, 2), ("Th".toList, 3), ("Fr".toList, 4), ("Sa".toList, 5),
   ("Su".toList, 6)]

/-- `DAY_NAMES_LONG`. -/
def dayNamesLong : Fin 7 → List Char
  | 0 => "Lundi".toList
  | 1 => "Mardi".toList
  | 2 => "Mercredi".toList
  | 3 => "Jeudi".toList
  | 4 => "Vendredi".toList
  | 5 => "Samedi".toList
  | 6 => "Dimanche".toList

/-- `MONTHS_FR`. -/
def monthsFr : List (List Char × List Char) :=
  [("Jan".toList, "janvier".toList), ("Feb".toList, "février".toList), ("Mar".toList, "mars".toList),
   ("Apr".toList, "avril".toList), ("May".toList, "mai".toList), ("Jun".toList, "juin".toList),
   ("Jul".toList, "juillet".toList), ("Aug".toList, "août".toList), ("Sep".toList, "septembre".toList),
   ("Oct".toList, "octobre".toList), ("Nov".toList, "novembre".toList), ("Dec".toList, "décembre".toList)]

structure DaySchedule where
  times : List (List Char)
  comment : Option (List Char)
  openAllDay : Bool
  deriving DecidableEq

structure OpeningHoursEntry where
  label : List Char
  hours : List Char
  comment : Option (List Char)
  deriving DecidableEq

structure FormattedOpeningHours where
  entries : List OpeningHoursEntry
  hasPhOff : Bool
  comments : List (List Char)
  deriving DecidableEq

/-! ## Closed months -/

/-- `" ".join`. -/
def join (separator : List Char) (parts : List (List Char)) : List Char := separator.intercalate parts

def formatDay (day : List Char) : List Char := if day = ['1'] then "1er".toList else day

variable (cls : CharClasses)

/-- `\d{1,2}`, on a whole text. -/
def isDay : List Char → Bool
  | [a] => (cls.digit a).isSome
  | [a, b] => (cls.digit a).isSome && (cls.digit b).isSome
  | _ => false

/-- `([A-Z][a-z]{2}) (\d{1,2})`, on a whole text. -/
def monthDay? : List Char → Option (List Char × List Char)
  | a :: b :: c :: ' ' :: day =>
      if a.isUpper ∧ b.isLower ∧ c.isLower ∧ isDay cls day then some ([a, b, c], day) else none
  | _ => none

/-- `Jul-Aug`. -/
def monthRange (start stop : List Char) : Except Error (List Char) := do
  return "Fermé de ".toList ++ (← getItem monthsFr start) ++ " à ".toList ++ (← getItem monthsFr stop)

/-- The sentence of a selector, where an unknown month raises. The expressions of dates have one dash at most, and no
group has one, so the text is cut there first. -/
def monthOff (selector : List Char) : Except Error (List Char) :=
  match selector.splitOn '-' with
  | [_] =>
      match monthDay? cls selector with
      | some (month, day) => do
          return "Fermé le ".toList ++ formatDay day ++ ' ' :: (← getItem monthsFr month)
      | none =>
          if ',' ∈ selector then do
            return "Fermé en ".toList ++ join ", ".toList (← (selector.splitOn ',').mapM (getItem monthsFr))
          else do
            return "Fermé en ".toList ++ (← getItem monthsFr selector)
  | [start, stop] =>
      match monthDay? cls start, monthDay? cls stop with
      | some (m1, d1), some (m2, d2) => do
          return "Fermé du ".toList ++ formatDay d1 ++ ' ' :: (← getItem monthsFr m1) ++ " au ".toList ++
            formatDay d2 ++ ' ' :: (← getItem monthsFr m2)
      | some (month, d1), none =>
          if isDay cls stop then do
            return "Fermé du ".toList ++ formatDay d1 ++ " au ".toList ++ formatDay stop ++
              ' ' :: (← getItem monthsFr month)
          else monthRange start stop
      | none, _ => monthRange start stop
  | _ => .error .valueError

/-- `None` when a month is unknown. -/
def translateMonthOff (selector : List Char) : Except Error (Option (List Char)) :=
  match monthOff cls selector with
  | .ok text => .ok (some text)
  | .error .keyError => .ok none
  | .error .valueError => .error .valueError

/-! ## The days and times of a rule -/

/-- One part of a selector of days. A range that wraps over the week is empty. -/
def expandPart (part : List Char) : Except Error (List (Fin 7)) :=
  if '-' ∈ part then
    match part.splitOn '-' with
    | [start, stop] => do
        let start ← getItem days start
        let stop ← getItem days stop
        return (List.finRange 7).filter fun day => start ≤ day ∧ day ≤ stop
    | _ => .error .valueError
  else do
    return [← getItem days part]

def expandDaySelector (selector : List Char) : Except Error (List (Fin 7)) := do
  return (← (selector.splitOn ',').mapM expandPart).flatten

/-- `\d{2}:\d{2}-\d{2}:\d{2}$`, on a text that does not end with a line break. -/
def isTimeRange : List Char → Bool
  | [a, b, ':', c, d, '-', e, f, ':', g, h] => [a, b, c, d, e, f, g, h].all fun c => (cls.digit c).isSome
  | _ => false

/-- `int`, on the digits of an hour. -/
def int (text : List Char) : Except Error Nat :=
  match text.mapM cls.digit with
  | some [] => .error .valueError
  | some digits => .ok (digits.foldl (fun n digit => 10 * n + digit) 0)
  | none => .error .valueError

def formatTime (time : List Char) : Except Error (List Char) :=
  match time.splitOn ':' with
  | [h, m] => do return Nat.toDigits 10 (← int cls h) ++ 'h' :: m
  | _ => .error .valueError

def formatTimeRange (timeRange : List Char) : Except Error (List Char) :=
  match timeRange.splitOn '-' with
  | [start, stop] => do return (← formatTime cls start) ++ " à ".toList ++ (← formatTime cls stop)
  | _ => .error .valueError

/-! ## Parsing -/

/-- `\bclosed\b`, replaced by `off`. -/
def closedWord : Pattern := fun before l =>
  if "closed".toList <+: l ∧ before.all (fun c => !cls.isWord c) ∧ (l.drop 6).head?.all (fun c => !cls.isWord c) then
    some ("off".toList, 5)
  else none

/-- `(open|off)\s*,`, replaced by the word and a semicolon. -/
def endOfRule : Pattern := fun _ l =>
  match ["open".toList, "off".toList].find? (· <+: l) with
  | some word =>
      let spaces := (l.drop word.length).takeWhile isSpace
      if ((l.drop word.length).dropWhile isSpace).head? = some ',' then
        some (word ++ [';'], word.length + spaces.length)
      else none
  | none => none

/-- `"[^"]*"`, removed. -/
def quoted : Pattern := fun _ l =>
  match l with
  | '"' :: l => if '"' ∈ l then some ([], (l.takeWhile (· ≠ '"')).length + 1) else none
  | _ => none

/-- The text of the first match of `"([^"]*)"`. -/
def quotedText (rule : List Char) : Option (List Char) :=
  match (rule.dropWhile (· ≠ '"')).tail with
  | l => if '"' ∈ l then some (l.takeWhile (· ≠ '"')) else none

abbrev Schedule := Fin 7 → Option DaySchedule

/-- What the loop on the rules has filled. -/
structure Parsed where
  schedule : Schedule
  hasPhOff : Bool
  comments : List (List Char)

def Parsed.empty : Parsed := ⟨fun _ => none, false, []⟩

def addTimes (timeRanges : List (List Char)) (comment : Option (List Char)) (openAllDay : Bool)
    (schedule : Schedule) (day : Fin 7) : Schedule :=
  let daySchedule := (schedule day).getD ⟨[], comment, false⟩
  Function.update schedule day (some { daySchedule with
    times := daySchedule.times ++ timeRanges
    openAllDay := daySchedule.openAllDay || openAllDay })

/-- A rule whose first word is no selector of days. -/
def parseOther (parts : List (List Char)) (parsed : Parsed) : Except Error Parsed :=
  if parts.getLast? = some "off".toList then do
    let translated ← translateMonthOff cls (join [' '] parts.dropLast)
    return { parsed with comments := parsed.comments ++ translated.toList }
  else .ok parsed

def parseDays (selector : List Char) (parts : List (List Char)) (comment : Option (List Char)) (parsed : Parsed) :
    Except Error Parsed :=
  if (selector :: parts).contains "off".toList then .ok parsed
  else
    let timeRanges := (parts.flatMap (·.splitOn ',')).filter (isTimeRange cls)
    let openAllDay := timeRanges = [] ∧ (selector :: parts).contains "open".toList
    if timeRanges = [] ∧ ¬ openAllDay then .ok parsed
    else do
      let days ← expandDaySelector selector
      return { parsed with schedule := days.foldl (addTimes timeRanges comment openAllDay) parsed.schedule }

/-- `selector.split(",")[0].split("-")[0]`. -/
def firstDay (selector : List Char) : List Char := (((selector.splitOn ',').headD []).splitOn '-').headD []

/-- One turn of the loop. -/
def parseRule (parsed : Parsed) (rule : List Char) : Except Error Parsed :=
  let rule := strip rule
  if rule = [] then .ok parsed
  else if "PH off".toList <:+: rule then .ok { parsed with hasPhOff := true }
  else
    match words (strip (sub quoted rule)) with
    | [] => .ok parsed
    | selector :: parts =>
        if (days.lookup (firstDay selector)).isSome then
          parseDays cls selector parts (quotedText rule) parsed
        else parseOther cls (selector :: parts) parsed

def normalise (value : List Char) : List Char := sub endOfRule (sub (closedWord cls) value)

def parseOsmHours (value : List Char) : Except Error Parsed :=
  ((normalise cls value).splitOn ';').foldlM (parseRule cls) .empty

/-! ## Formatting -/

def formatEntry (day : Fin 7) (schedule : DaySchedule) : Except Error OpeningHoursEntry := do
  let hours ←
    if schedule.openAllDay ∧ schedule.times = [] then .ok "ouvert".toList
    else (join " - ".toList) <$> (schedule.times.mergeSort fun a b => decide (a ≤ b)).mapM (formatTimeRange cls)
  return ⟨dayNamesLong day, hours, schedule.comment⟩

/-- The days of the schedule, in the order of the week. -/
def Parsed.scheduled (parsed : Parsed) : List (Fin 7 × DaySchedule) :=
  (List.finRange 7).filterMap fun day => (parsed.schedule day).map (day, ·)

/-- What `format_osm_hours` makes of the schedule, if it raises nothing. -/
def formatParsed (parsed : Parsed) : Except Error (Option FormattedOpeningHours) :=
  if parsed.scheduled = [] then .ok none
  else do
    let entries ← parsed.scheduled.mapM fun entry => formatEntry cls entry.1 entry.2
    return some ⟨entries, parsed.hasPhOff, parsed.comments⟩

def formatOsmHours (value : List Char) : Option FormattedOpeningHours :=
  if value = [] then none
  else
    match parseOsmHours cls value >>= formatParsed cls with
    | .ok formatted => formatted
    | .error _ => none

end Itou.Insertion.OpeningHours
