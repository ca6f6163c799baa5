import Accessibility.Progress.Badge
import Accessibility.Progress.Level

/-! # Rewards of exercises -/

namespace Accessibility

/-- An exercise that a learner has tried, and the progress before it. -/
structure Completion where
  day : Int
  seconds : Int
  hints : Int
  experience : Int := 0
  /-- How many other exercises of the day are done. -/
  doneBefore : Int := 0
  badgeEarned : Bool := false

structure Reward where
  gained : Int
  total : Int
  level : Nat
  dayCompleted : Bool
  badges : List Badge
  deriving Repr, DecidableEq

namespace Reward

/-- The experience of one exercise. There is more of it without hints and within two minutes. -/
def ofExercise (seconds hints : Int) : Int :=
  100 + (if hints = 0 then 50 else 0) + (if seconds < 120 then 25 else 0)

def dayBonus : Int := 500

/-- The number of exercises that completes a day. -/
def perDay : Int := 3

def completesDay (c : Completion) : Bool :=
  c.doneBefore + 1 = perDay

def gain (c : Completion) : Int :=
  ofExercise c.seconds c.hints + (if completesDay c then dayBonus else 0)

/-- The badge of a completed day, unless it is earned already. -/
def dayBadges (c : Completion) : List Badge :=
  if completesDay c && !c.badgeEarned then (Badge.ofDay? c.day).toList else []

/-- What an exercise earns, passed or not. -/
def ofCompletion (passed : Bool) (c : Completion) : Except Fault Reward :=
  if passed then
    (Level.ofExperience (c.experience + gain c)).map fun level =>
      { gained := gain c
        total := c.experience + gain c
        level
        dayCompleted := completesDay c
        badges := dayBadges c }
  else
    (Level.ofExperience c.experience).map fun level =>
      { gained := 0, total := c.experience, level, dayCompleted := false, badges := [] }

end Reward

end Accessibility
