import Accessibility.Exercise.Verify
import Accessibility.Progress.Reward
import Accessibility.Progress.Streak

/-! # Sessions

A session keeps the progress of one learner over a list of steps. A step that fails is reported and changes no more
than the dates. -/

namespace Accessibility

structure Session where
  experience : Int := 0
  streak : Streak := {}
  /-- The dates of activity. -/
  dates : List Date := []
  /-- The identifiers of the badges earned. -/
  earned : List String := []
  /-- The exercises done, each with its day. -/
  done : List (Int × Activity.Request) := []

namespace Session

inductive Step
  | complete (page : Text) (activity : Activity.Request) (day seconds hints : Int)
  | active (date : Date)
  | idle (date : Date)

/-- What a step brings about. -/
inductive Outcome
  | completed (message : String) (reward : Reward)
  | streak (streak : Streak) (badges : List Badge)
  | failed (f : Fault)

def Outcome.badges : Outcome → List Badge
  | completed _ reward => reward.badges
  | streak _ badges => badges
  | failed _ => []

/-- How many exercises of a day are done, not counting one. -/
def doneBefore (s : Session) (day : Int) (activity : Activity.Request) : Nat :=
  s.done.countP fun (d, a) => d = day && a ≠ activity

def hasBadgeOf (s : Session) (day : Int) : Bool :=
  (Badge.ofDay? day).any fun b => s.earned.contains b.id

def completion (s : Session) (activity : Activity.Request) (day seconds hints : Int) : Completion where
  day := day
  seconds := seconds
  hints := hints
  experience := s.experience
  doneBefore := s.doneBefore day activity
  badgeEarned := s.hasBadgeOf day

def earn (s : Session) (badges : List Badge) : Session :=
  { s with earned := s.earned ++ badges.map Badge.id }

def markDone (s : Session) (day : Int) (activity : Activity.Request) : Session :=
  if (day, activity) ∈ s.done then s else { s with done := s.done ++ [(day, activity)] }

def addDate (s : Session) (date : Date) : Session :=
  if date ∈ s.dates then s else { s with dates := s.dates ++ [date] }

def complete (s : Session) (page : Text) (activity : Activity.Request) (day seconds hints : Int) :
    Except Fault (Outcome × Session) := do
  let verdict ← Exercise.verify page activity
  let reward ← Reward.ofCompletion verdict.passed (s.completion activity day seconds hints)
  let s := { s with experience := reward.total }.earn reward.badges
  return (.completed verdict.message reward, if verdict.passed then s.markDone day activity else s)

def passDay (s : Session) (date : Date) : Except Fault (Outcome × Session) := do
  let streak ← s.streak.advance s.dates date
  let badges := Badge.ofStreak streak.current s.earned
  return (.streak streak badges, { s with streak }.earn badges)

/-- The outcome of a step and the session after it. -/
def step (s : Session) : Step → Outcome × Session
  | .complete page activity day seconds hints =>
    match s.complete page activity day seconds hints with
    | .ok next => next
    | .error f => (.failed f, s)
  | .active date =>
    match (s.addDate date).passDay date with
    | .ok next => next
    | .error f => (.failed f, s.addDate date)
  | .idle date =>
    match s.passDay date with
    | .ok next => next
    | .error f => (.failed f, s)

/-- The outcomes of a list of steps, each with the session after it. -/
def run (s : Session) : List Step → List (Outcome × Session)
  | [] => []
  | first :: rest => s.step first :: (s.step first).2.run rest

/-- The identifiers of the badges earned, in alphabetical order. -/
def sortedEarned (s : Session) : List String :=
  s.earned.mergeSort fun a b => decide (a ≤ b)

end Session

end Accessibility
