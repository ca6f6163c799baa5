import Accessibility.Exercise.Verdict
import Accessibility.Markup.Attribute
import Accessibility.Markup.Tag
import Accessibility.Exercise.Style
import Accessibility.Text.Blank

/-! # Exercises about labels, live regions and captions -/

namespace Accessibility.Exercise

/-- A descriptive label has more characters than this. -/
def labelLength : Nat := 15

def ariaLabel (page : Text) : Verdict :=
  let labels := Attribute.values "aria-label".toList page
  let meaningful := labels.filter fun label => labelLength < label.length
  match labels with
  | [] =>
    { passed := false
      message := "Missing aria-label attributes"
      details := ["Add aria-label to icon buttons", "Describe what each button does"]
      announcement := some "Button with no description" }
  | first :: _ =>
    if meaningful.length < labels.length then
      { passed := false
        message := "Aria labels should be more descriptive"
        details := ["Describe the action, not just the icon", "Use clear, concise descriptions"]
        announcement := some "Button with unclear description" }
    else
      { passed := true
        message := "Perfect! All buttons have clear aria-labels"
        details := [s!"Found {meaningful.length} well-labeled buttons"]
        announcement := some (String.ofList first) }

def formLabel (page : Text) : Verdict :=
  let targets := Attribute.values "for".toList page
  let ids := Attribute.values "id".toList page
  if !(Attribute.isGiven "for".toList page && Attribute.isGiven "id".toList page) then
    { passed := false
      message := "Labels not properly connected to inputs"
      details := ["Use 'for' attribute on labels", "Add matching 'id' attribute on inputs"]
      announcement := some "Form field with no label" }
  else if targets.all ids.contains then
    { passed := true
      message := "Excellent! All form labels are properly connected"
      details := [s!"Found {targets.length} properly labeled form fields"]
      announcement := some "Form field with proper label connection" }
  else
    { passed := false
      message := "Some labels don't match their inputs"
      details := ["Ensure each 'for' attribute matches an 'id'", "Check spelling and case sensitivity"]
      announcement := some "Form field with mismatched label" }

def liveRegion (page : Text) : Verdict :=
  if Attribute.isGiven "aria-live".toList page then
    { passed := true
      message := "Great! Status messages will be announced"
      details := ["Screen readers will announce status changes"]
      announcement := some "Status update will be announced" }
  else
    { passed := false
      message := "Missing aria-live attribute for status updates"
      details := ["Add aria-live='polite' to status messages", "This announces changes to screen readers"]
      announcement := some "Status update not announced" }

def isCaptions (track : Tag) : Bool :=
  match Attribute.value? "kind".toList track.raw with
  | none => false
  | some kind => Text.lower (Text.strip kind) == "captions".toList

/-- Captions are required; a transcript is only advised. -/
def captions (page : Text) : Verdict :=
  if !(Tag.findAll .track page).any isCaptions then
    { passed := false
      message := "Missing video captions"
      details := ["Add <track> element with kind='captions'", "Provide captions for video content"]
      announcement := some "Video has no captions" }
  else if mentions "transcript" page then
    { passed := true
      message := "Perfect! Video is fully accessible"
      details := ["Captions and transcript provide multiple access methods"]
      announcement := some "Video has captions and transcript available" }
  else
    { passed := true
      message := "Captions found. Consider adding transcript link"
      details := ["Provide a link to full transcript", "Transcripts help users who can't use video"]
      announcement := some "Video has captions but no transcript" }

end Accessibility.Exercise
