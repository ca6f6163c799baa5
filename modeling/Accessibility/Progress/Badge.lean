import Accessibility.Json.Basic

/-! # Badges -/

namespace Accessibility

/-- A badge for one of the days of the course, or for a streak of active days. -/
inductive Badge
  | visualHero
  | keyboardMaster
  | screenReaderAlly
  | universalChampion
  | streak (days : Nat)
  deriving Repr, DecidableEq

namespace Badge

def id : Badge → String
  | visualHero => "visual-hero"
  | keyboardMaster => "keyboard-master"
  | screenReaderAlly => "screen-reader-ally"
  | universalChampion => "universal-champion"
  | streak days => s!"streak-{days}"

def name : Badge → String
  | visualHero => "Visual Accessibility Hero"
  | keyboardMaster => "Keyboard Navigation Master"
  | screenReaderAlly => "Screen Reader Ally"
  | universalChampion => "Universal Design Champion"
  | streak days => s!"{days} Day Streak"

def description : Badge → String
  | visualHero => "Mastered alt text, headings, and color contrast"
  | keyboardMaster => "Conquered tab order, focus, and skip links"
  | screenReaderAlly => "Implemented ARIA labels and live regions"
  | universalChampion => "Achieved comprehensive accessibility mastery"
  | streak days => s!"Completed activities for {days} consecutive days"

def category : Badge → String
  | streak _ => "streak"
  | _ => "daily"

/-- The badge of a day of the course. -/
def ofDay? (day : Int) : Option Badge :=
  if day = 1 then some visualHero
  else if day = 2 then some keyboardMaster
  else if day = 3 then some screenReaderAlly
  else if day = 4 then some universalChampion
  else none

/-- The lengths of a streak that earn a badge. -/
def milestones : List Nat := [3, 7, 14, 30]

/-- The milestones that a streak has reached and that are not earned yet. -/
def ofStreak (current : Int) (earned : List String) : List Badge :=
  (milestones.filter fun (days : Nat) => (days : Int) ≤ current && !earned.contains (streak days).id).map streak

def toJson (b : Badge) : Json :=
  .object [
    ("category", .text b.category),
    ("description", .text b.description),
    ("id", .text b.id),
    ("name", .text b.name)]

end Badge

end Accessibility
