import Itou.Insertion.OpeningHours

/-!
# Opening hours that are written down

Rules as data, their text in the format of OpenStreetMap, and what they mean for the parser.
-/

namespace Itou.Insertion.OpeningHours

open Itou.Lib

/-! ## Rules -/

def digits2 (n : Fin 100) : List Char := [Nat.digitChar (n / 10), Nat.digitChar (n % 10)]

/-- An opening and a closing time, each with its hour and its minutes. -/
structure TimeRange where
  start : Fin 100 × Fin 100
  stop : Fin 100 × Fin 100
  deriving DecidableEq

def TimeRange.text (t : TimeRange) : List Char :=
  digits2 t.start.1 ++ ':' :: digits2 t.start.2 ++ '-' :: digits2 t.stop.1 ++ ':' :: digits2 t.stop.2

/-- The number of a range in the order of time. -/
def TimeRange.key (t : TimeRange) : Nat :=
  ((t.start.1 * 100 + t.start.2) * 100 + t.stop.1) * 100 + t.stop.2

/-- `9h00 à 12h30`. -/
def TimeRange.shown (t : TimeRange) : List Char :=
  Nat.toDigits 10 t.start.1 ++ 'h' :: digits2 t.start.2 ++ " à ".toList ++ Nat.toDigits 10 t.stop.1 ++
    'h' :: digits2 t.stop.2

def dayName : Fin 7 → List Char
  | 0 => "Mo".toList
  | 1 => "Tu".toList
  | 2 => "We".toList
  | 3 => "Th".toList
  | 4 => "Fr".toList
  | 5 => "Sa".toList
  | 6 => "Su".toList

inductive DayRange where
  | day (day : Fin 7)
  | range (first last : Fin 7)

namespace DayRange

def text : DayRange → List Char
  | day d => dayName d
  | range first last => dayName first ++ '-' :: dayName last

/-- A range that wraps over the week has no day. -/
def days : DayRange → List (Fin 7)
  | day d => [d]
  | range first last => (List.finRange 7).filter fun d => first ≤ d ∧ d ≤ last

end DayRange

def monthName (month : Fin 12) : List Char := (monthsFr.get month).1

def monthFr (month : Fin 12) : List Char := (monthsFr.get month).2

def dayNumber (n : Fin 100) : List Char :=
  if n < 10 then [Nat.digitChar n] else [Nat.digitChar (n / 10), Nat.digitChar (n % 10)]

inductive MonthSelector where
  | month (month : Fin 12)
  | months (first second : Fin 12) (rest : List (Fin 12))
  | range (first last : Fin 12)
  | date (month : Fin 12) (day : Fin 100)
  | dateRange (month : Fin 12) (first last : Fin 100)
  | dates (month : Fin 12) (day : Fin 100) (month' : Fin 12) (day' : Fin 100)

namespace MonthSelector

def words : MonthSelector → List (List Char)
  | month m => [monthName m]
  | months first second rest => [[','].intercalate ((first :: second :: rest).map monthName)]
  | range first last => [monthName first ++ '-' :: monthName last]
  | date m d => [monthName m, dayNumber d]
  | dateRange m first last => [monthName m, dayNumber first ++ '-' :: dayNumber last]
  | dates m d m' d' => [monthName m, dayNumber d ++ '-' :: monthName m', dayNumber d']

/-- What the page says of the months. -/
def sentence : MonthSelector → List Char
  | month m => "Fermé en ".toList ++ monthFr m
  | months first second rest => "Fermé en ".toList ++ join ", ".toList ((first :: second :: rest).map monthFr)
  | range first last => "Fermé de ".toList ++ monthFr first ++ " à ".toList ++ monthFr last
  | date m d => "Fermé le ".toList ++ formatDay (dayNumber d) ++ ' ' :: monthFr m
  | dateRange m first last =>
      "Fermé du ".toList ++ formatDay (dayNumber first) ++ " au ".toList ++ formatDay (dayNumber last) ++
        ' ' :: monthFr m
  | dates m d m' d' =>
      "Fermé du ".toList ++ formatDay (dayNumber d) ++ ' ' :: monthFr m ++ " au ".toList ++
        formatDay (dayNumber d') ++ ' ' :: monthFr m'

end MonthSelector

/-- What a rule is about: days of the week, public holidays, or months and dates. -/
inductive Selector where
  | days (first : DayRange) (rest : List DayRange)
  | holidays
  | months (selector : MonthSelector)

def Selector.words : Selector → List (List Char)
  | days first rest => [[','].intercalate ((first :: rest).map DayRange.text)]
  | holidays => ["PH".toList]
  | months selector => selector.words

inductive Hours where
  | times (first : TimeRange) (rest : List TimeRange) (withOpen : Bool)
  | openAllDay
  | off (closed : Bool)

namespace Hours

def words : Hours → List (List Char)
  | times first rest withOpen =>
      [','].intercalate ((first :: rest).map TimeRange.text) :: if withOpen then ["open".toList] else []
  | openAllDay => ["open".toList]
  | off closed => [if closed then "closed".toList else "off".toList]

/-- `closed` is another word for `off`. -/
def normal : Hours → Hours
  | off _ => off false
  | hours => hours

def timeRanges : Hours → List TimeRange
  | times first rest _ => first :: rest
  | openAllDay | off _ => []

end Hours

/-- How a rule ends: with a comma, or with a comment or nothing before a semicolon. -/
inductive Ending where
  | comma
  | semicolon (comment : Option (List Char))

structure Rule where
  selector : Selector
  hours : Hours
  ending : Ending

namespace Rule

variable (r : Rule)

def words : List (List Char) := r.selector.words ++ r.hours.words

def comment : Option (List Char) :=
  match r.ending with
  | .comma => none
  | .semicolon comment => comment

def text : List Char :=
  [' '].intercalate r.words ++
    match r.comment with
    | none => []
    | some comment => ' ' :: '"' :: comment ++ ['"']

def separator : Char :=
  match r.ending with
  | .comma => ','
  | .semicolon _ => ';'

/-- What the parser asks of the comments, which it does not tell from the rules. A comma may only follow `open`, `off`
and `closed`. -/
structure Plain : Prop where
  quote : ∀ comment ∈ r.comment, '"' ∉ comment
  semicolon : ∀ comment ∈ r.comment, ';' ∉ comment
  closed : ∀ comment ∈ r.comment, ¬ "closed".toList <:+: comment
  opened : ∀ comment ∈ r.comment, ¬ "open".toList <:+: comment
  off : ∀ comment ∈ r.comment, ¬ "off".toList <:+: comment
  comma : r.ending = .comma → r.hours.words.getLast? ∈ [some "open".toList, some "off".toList, some "closed".toList]

/-- The days that a rule opens, with their repetitions. -/
def openDays : List (Fin 7) :=
  match r.selector, r.hours with
  | .days first rest, .times .. | .days first rest, .openAllDay => (first :: rest).flatMap DayRange.days
  | _, _ => []

def closesHolidays : Bool :=
  match r.selector, r.hours with
  | .holidays, .off _ => true
  | _, _ => false

def closure : Option (List Char) :=
  match r.selector, r.hours with
  | .months selector, .off _ => some selector.sentence
  | _, _ => none

def opensAllDay : Bool :=
  match r.hours with
  | .openAllDay => true
  | _ => false

end Rule

/-- The text of the rules. -/
def text (rules : List Rule) : List Char := rules.flatMap fun r => r.text ++ [r.separator, ' ']

/-! ## What the rules mean for the parser -/

/-- The rules that open a day, each as many times as it names the day. -/
def openings (rules : List Rule) (day : Fin 7) : List Rule :=
  rules.flatMap fun r => (r.openDays.filter (· = day)).map fun _ => r

/-- The ranges of all the rules that open the day are kept, whatever the rules after them; the comment is that of the
first one. -/
def meaning (rules : List Rule) : Parsed where
  schedule day := (openings rules day).head?.map fun first =>
    ⟨(openings rules day).flatMap fun r => r.hours.timeRanges.map TimeRange.text, first.comment,
      (openings rules day).any Rule.opensAllDay⟩
  hasPhOff := rules.any Rule.closesHolidays
  comments := rules.filterMap Rule.closure

/-- The ranges of a day, in the order of time, or `ouvert` when no rule gives any. -/
def hoursShown (ranges : List TimeRange) : List Char :=
  if ranges = [] then "ouvert".toList
  else join " - ".toList ((ranges.mergeSort fun a b => decide (a.key ≤ b.key)).map TimeRange.shown)

/-- What the page shows of a day. -/
def dayShown (rules : List Rule) (day : Fin 7) : Option OpeningHoursEntry :=
  (openings rules day).head?.map fun first =>
    ⟨dayNamesLong day, hoursShown ((openings rules day).flatMap fun r => r.hours.timeRanges), first.comment⟩

/-- What the page shows of the rules. -/
def shown (rules : List Rule) : Option FormattedOpeningHours :=
  match (List.finRange 7).filterMap (dayShown rules) with
  | [] => none
  | entries => some ⟨entries, rules.any Rule.closesHolidays, rules.filterMap Rule.closure⟩

/-- Two pages with the same opening hours for each day, and the same sentences. -/
structure SameHours (a b : FormattedOpeningHours) : Prop where
  hours : a.entries.map (fun entry => (entry.label, entry.hours)) = b.entries.map fun entry => (entry.label, entry.hours)
  hasPhOff : a.hasPhOff = b.hasPhOff
  comments : a.comments.Perm b.comments

end Itou.Insertion.OpeningHours
