import Accessibility.Proofs.Color.Form
import Accessibility.Proofs.Number.Numeral

/-! # Understanding a colour

A colour fails to be read only where one of its three numbers is longer than any that is read. The canonical form of a
colour is understood as that colour, so nothing is lost where a colour is resolved once more. -/

namespace Accessibility

namespace Color

/-! ## Overlong numbers -/

namespace Form

/-- One of the three numbers has more digits than are read. -/
def IsOverlong (f : Form) : Prop :=
  Fault.digitLimit < f.red.length ∨ Fault.digitLimit < f.green.length ∨ Fault.digitLimit < f.blue.length

theorem named?_raw (f : Form) : named? f.raw = none := by
  have hnames : ∀ entry ∈ named, '(' ∉ entry.1 := by decide
  have hbracket : '(' ∈ f.raw := by
    obtain ⟨before, behind, -, -, hopening⟩ := f.opening_spaced
    have hmem : '(' ∈ f.opening := hopening ▸ List.mem_append_right before List.mem_cons_self
    rw [raw_eq]
    exact List.mem_append_right _ (List.mem_append_right _ (List.mem_append_left _ hmem))
  rw [named?, Option.map_eq_none_iff, List.find?_eq_none]
  intro entry hentry heq
  exact hnames entry hentry (eq_of_beq heq ▸ hbracket)

theorem ofHex?_raw (f : Form) : ofHex? f.raw = none := rfl

end Form

theorem readChannel_of_overlong {run : Text} (h : Fault.digitLimit < run.length) :
    readChannel run = .error (.tooManyDigits run.length) := by
  rw [readChannel, Numeral.readRun_of_overlong h]
  rfl

theorem exists_readChannel {run : Text} (h : ¬Fault.digitLimit < run.length) : ∃ c, readChannel run = .ok c := by
  obtain ⟨n, hn⟩ := Numeral.exists_readRun h
  exact ⟨Fin.ofNat 256 (min 255 n), by rw [readChannel, hn]; rfl⟩

/-! ## Understanding -/

/-- A text is overlong when it is three numbers of which one is. -/
def IsOverlong (t : Text) : Prop :=
  ∃ f : Form, f.raw = t ∧ f.IsOverlong

/-- What is asked of the text that a colour is read from: no case and no blanks around it. -/
def normal (t : Text) : Text :=
  Text.lower (Text.strip t)

theorem parse_raw {t : Text} {f : Form} (h : f.raw = normal t) :
    parse (.text t) = do
      let red ← readChannel f.red
      let green ← readChannel f.green
      let blue ← readChannel f.blue
      return some ⟨red, green, blue⟩ := by
  have hnamed := f.named?_raw
  have hhex := f.ofHex?_raw
  have hnumbers := numbers?_raw f
  rw [h, normal] at hnamed hhex hnumbers
  simp only [parse, hnamed, hhex, hnumbers, Form.channels]

theorem parse_of_overlong {t : Text} (h : IsOverlong (normal t)) :
    ∃ n, Fault.digitLimit < n ∧ parse (.text t) = .error (.tooManyDigits n) := by
  obtain ⟨f, hf, hlong⟩ := h
  rw [parse_raw hf]
  by_cases hred : Fault.digitLimit < f.red.length
  · exact ⟨_, hred, by rw [readChannel_of_overlong hred]; rfl⟩
  obtain ⟨red, hred'⟩ := exists_readChannel hred
  rw [hred']
  by_cases hgreen : Fault.digitLimit < f.green.length
  · exact ⟨_, hgreen, by rw [readChannel_of_overlong hgreen]; rfl⟩
  obtain ⟨green, hgreen'⟩ := exists_readChannel hgreen
  rw [hgreen']
  have hblue := (hlong.resolve_left hred).resolve_left hgreen
  exact ⟨_, hblue, by rw [readChannel_of_overlong hblue]; rfl⟩

theorem parse_of_not_overlong {t : Text} (h : ¬IsOverlong (normal t)) : ∃ c, parse (.text t) = .ok c := by
  cases hnamed : named? (normal t) with
  | some c => exact ⟨some c, by rw [normal] at hnamed; simp only [parse, hnamed]⟩
  | none =>
      cases hhex : ofHex? (normal t) with
      | some c => exact ⟨some c, by rw [normal] at hnamed hhex; simp only [parse, hnamed, hhex]⟩
      | none =>
          cases hnumbers : numbers? (normal t) with
          | none => exact ⟨none, by rw [normal] at hnamed hhex hnumbers; simp only [parse, hnamed, hhex, hnumbers]⟩
          | some runs =>
              obtain ⟨f, hf, -⟩ := numbers?_eq_some_iff.mp hnumbers
              have hshort : ¬f.IsOverlong := fun hlong => h ⟨f, hf, hlong⟩
              rw [Form.IsOverlong, not_or, not_or] at hshort
              obtain ⟨red, hred⟩ := exists_readChannel hshort.1
              obtain ⟨green, hgreen⟩ := exists_readChannel hshort.2.1
              obtain ⟨blue, hblue⟩ := exists_readChannel hshort.2.2
              exact ⟨some ⟨red, green, blue⟩, by rw [parse_raw hf, hred, hgreen, hblue]; rfl⟩

/-! ## The canonical form -/

theorem hexDigits_two (n : Nat) : Text.hexDigits 2 n = [Text.hexDigit (n / 16 % 16), Text.hexDigit (n % 16)] := rfl

theorem channel?_hexDigits : ∀ n : Fin 256,
    channel? (Text.hexDigit (n.val / 16 % 16)) (Text.hexDigit (n.val % 16)) = some n := by
  decide +kernel

theorem hexDigit_spec : ∀ d < 16, (Text.hexDigit d).toNat < 128 ∧ (Text.hexDigit d).toLower = Text.hexDigit d ∧
    Text.isBlank (Text.hexDigit d) = false := by
  decide

theorem hex_spec (c : Color) : ∀ d ∈ c.hex, d.toNat < 128 ∧ d.toLower = d ∧ Text.isBlank d = false := by
  intro d hd
  have hdigit : ∀ n : Nat, (Text.hexDigit (n % 16)).toNat < 128 ∧
      (Text.hexDigit (n % 16)).toLower = Text.hexDigit (n % 16) ∧ Text.isBlank (Text.hexDigit (n % 16)) = false :=
    fun n => hexDigit_spec _ (Nat.mod_lt n (by decide))
  simp only [hex, hexDigits_two, List.cons_append, List.nil_append, List.mem_cons, List.not_mem_nil, or_false] at hd
  rcases hd with rfl | rfl | rfl | rfl | rfl | rfl | rfl
  · decide
  all_goals exact hdigit _

theorem normal_hex (c : Color) : normal c.hex = c.hex := by
  have hstrip : Text.strip c.hex = c.hex :=
    Text.trim_eq_self (fun d hd => (hex_spec c d (List.mem_of_head? hd)).2.2)
      fun d hd => (hex_spec c d (List.mem_of_getLast? hd)).2.2
  rw [normal, hstrip, Text.lower_of_ascii fun d hd => (hex_spec c d hd).1]
  exact (List.map_congr_left fun d hd => (hex_spec c d hd).2.1).trans (List.map_id _)

/-- The canonical form of a colour is understood as that colour. -/
theorem parse_hex (c : Color) : parse (.text c.hex) = .ok (some c) := by
  have hnormal := normal_hex c
  rw [normal] at hnormal
  have hnamed : named? c.hex = none := by
    have hnames : ∀ entry ∈ named, entry.1.head? ≠ some '#' := by decide
    rw [named?, Option.map_eq_none_iff, List.find?_eq_none]
    intro entry hentry heq
    exact hnames entry hentry (by rw [eq_of_beq heq]; rfl)
  have hhex : ofHex? c.hex = some c := by
    simp only [hex, hexDigits_two, List.cons_append, List.nil_append, ofHex?, channel?_hexDigits, Option.bind_some,
      Option.map_some]
  simp only [parse, hnormal, hnamed, hhex]

end Color

end Accessibility
