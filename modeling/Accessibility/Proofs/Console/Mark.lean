import Accessibility.Console.Escape
import Accessibility.Proofs.Text.Place

/-! # Tags in console markup

The console reads a text from left to right for words in brackets, each with the backslashes before it. A word is taken
for a tag if the number of these backslashes is even, and shown as it is otherwise. -/

namespace Accessibility.Console

/-! ## Words in brackets -/

/-- A word in brackets that can be a tag: it starts with a small letter, a sharp, a slash or an at sign, and no other
bracket stands inside it. -/
def IsTag (t : Text) : Prop :=
  ∃ c inner, t = '[' :: c :: inner ++ [']'] ∧ ('a' ≤ c ∧ c ≤ 'z' ∨ c ∈ ['#', '/', '@']) ∧ '[' ∉ inner ∧ ']' ∉ inner

theorem isTagStart_iff {c : Char} : isTagStart c = true ↔ 'a' ≤ c ∧ c ≤ 'z' ∨ c ∈ ['#', '/', '@'] := by
  simp [isTagStart, or_assoc]

theorem bracketless_iff {s : Text} : (∀ c ∈ s, (c != '[' && c != ']') = true) ↔ '[' ∉ s ∧ ']' ∉ s := by
  constructor
  · intro h
    exact ⟨fun hmem => absurd (h _ hmem) (by decide), fun hmem => absurd (h _ hmem) (by decide)⟩
  · rintro ⟨hopening, hclosing⟩ c hc
    simp only [Bool.and_eq_true, bne_iff_ne]
    exact ⟨fun heq => hopening (heq ▸ hc), fun heq => hclosing (heq ▸ hc)⟩

theorem tag?_eq_some_iff {t tag : Text} : tag? t = some tag ↔ IsTag tag ∧ tag <+: t := by
  constructor
  · intro h
    unfold tag? at h
    dsimp only at h
    split at h
    · rename_i c rest
      split at h
      · rename_i hstart
        split at h
        · rename_i after hrest
          obtain rfl := Option.some.inj h
          have hinner := bracketless_iff.mp (List.all_eq_true.mp (List.all_takeWhile (l := rest)))
          refine ⟨⟨c, _, rfl, isTagStart_iff.mp hstart, hinner⟩, after, ?_⟩
          simp only [List.cons_append, List.append_assoc, List.nil_append, ← hrest]
          rw [List.prefix_iff_eq_append.mp (List.takeWhile_prefix _)]
        · contradiction
      · contradiction
    · contradiction
  · rintro ⟨⟨c, inner, rfl, hstart, hinner⟩, rest, rfl⟩
    have htaken : (inner ++ ']' :: rest).takeWhile (fun c => c != '[' && c != ']') = inner := by
      rw [List.takeWhile_append_of_pos (bracketless_iff.mpr hinner), List.takeWhile_cons_of_neg (by decide),
        List.append_nil]
    simp [tag?, isTagStart_iff.mpr hstart, htaken]

/-- Whether a closing bracket comes before any opening one. -/
def closes : Text → Bool
  | [] => false
  | c :: t => c == ']' || c != '[' && closes t

theorem closes_append_of_not_mem {s : Text} (hopening : '[' ∉ s) (hclosing : ']' ∉ s) (t : Text) :
    closes (s ++ t) = closes t := by
  induction s with
  | nil => rfl
  | cons c s ih =>
      rw [List.mem_cons, not_or] at hopening hclosing
      have hc : (c == ']') = false ∧ (c != '[') = true := by
        simpa using And.intro (Ne.symm hclosing.1) (Ne.symm hopening.1)
      rw [List.cons_append, closes, hc.1, hc.2, ih hopening.2 hclosing.2]
      rfl

theorem exists_of_closes {t : Text} (h : closes t = true) :
    ∃ inner rest, t = inner ++ ']' :: rest ∧ '[' ∉ inner ∧ ']' ∉ inner := by
  induction t with
  | nil => contradiction
  | cons c t ih =>
      simp only [closes, Bool.or_eq_true, Bool.and_eq_true, beq_iff_eq, bne_iff_ne] at h
      by_cases hc : c = ']'
      · exact ⟨[], t, by rw [hc, List.nil_append], List.not_mem_nil, List.not_mem_nil⟩
      · obtain ⟨hne, ht⟩ := h.resolve_left hc
        obtain ⟨inner, rest, rfl, hopening, hclosing⟩ := ih ht
        exact ⟨c :: inner, rest, rfl, by simp [Ne.symm hne, hopening], by simp [Ne.symm hc, hclosing]⟩

/-- A bracket opens no word unless what may start a word follows it and the next bracket is a closing one. -/
theorem tag?_bracket_eq_none_iff {t : Text} :
    tag? ('[' :: t) = none ↔ ∀ c u, t = c :: u → isTagStart c = true → closes u = false := by
  constructor
  · rintro h c u rfl hstart
    rw [← Bool.not_eq_true]
    intro hcloses
    obtain ⟨inner, rest, rfl, hinner⟩ := exists_of_closes hcloses
    have hsome : tag? ('[' :: c :: (inner ++ ']' :: rest)) = some ('[' :: c :: inner ++ [']']) :=
      tag?_eq_some_iff.mpr ⟨⟨c, inner, rfl, isTagStart_iff.mp hstart, hinner⟩, rest, by simp⟩
    rw [h] at hsome
    contradiction
  · intro h
    rw [Option.eq_none_iff_forall_ne_some]
    intro tag hsome
    obtain ⟨⟨c, inner, rfl, hstart, hopening, hclosing⟩, rest, hrest⟩ := tag?_eq_some_iff.mp hsome
    have hcloses := h c (inner ++ ']' :: rest) (by simpa using (List.cons.inj hrest).2.symm) (isTagStart_iff.mpr hstart)
    rw [closes_append_of_not_mem hopening hclosing] at hcloses
    contradiction

theorem tag?_of_head {t : Text} (h : t.head? ≠ some '[') : tag? t = none := by
  rw [Option.eq_none_iff_forall_ne_some]
  intro tag hsome
  obtain ⟨⟨c, inner, rfl, -⟩, rest, rfl⟩ := tag?_eq_some_iff.mp hsome
  exact h rfl

/-! ## Backslashes before a word -/

/-- A run of backslashes. -/
def slashes (n : Nat) : Text :=
  List.replicate n '\\'

theorem eq_of_mem_slashes {n : Nat} {c : Char} (h : c ∈ slashes n) : c = '\\' :=
  List.eq_of_mem_replicate h

@[simp] theorem length_slashes (n : Nat) : (slashes n).length = n :=
  List.length_replicate

theorem slashes_one : slashes 1 = ['\\'] := rfl

theorem slashes_append_slashes (m n : Nat) : slashes m ++ slashes n = slashes (m + n) :=
  List.replicate_append_replicate

theorem closes_slashes_append (n : Nat) (t : Text) : closes (slashes n ++ t) = closes t := by
  refine closes_append_of_not_mem ?_ ?_ t <;> intro h <;> exact absurd (eq_of_mem_slashes h) (by decide)

theorem exists_slashes (t : Text) : ∃ n rest, t = slashes n ++ rest ∧ rest.head? ≠ some '\\' := by
  induction t with
  | nil => exact ⟨0, [], rfl, nofun⟩
  | cons c t ih =>
      by_cases hc : c = '\\'
      · obtain ⟨n, rest, rfl, hrest⟩ := ih
        exact ⟨n + 1, rest, by rw [hc]; rfl, hrest⟩
      · exact ⟨0, c :: t, rfl, by simpa using hc⟩

theorem backslashedTag_slashes (before : Option Char) (n : Nat) {t : Text} (h : t.head? ≠ some '\\') :
    backslashedTag before (slashes n ++ t) = (tag? t).map fun tag => ((slashes n, tag), slashes n ++ tag) := by
  have hall : ∀ c ∈ slashes n, isBackslash c = true := fun c hc => beq_iff_eq.mpr (eq_of_mem_slashes hc)
  have htaken : t.takeWhile isBackslash = [] ∧ t.dropWhile isBackslash = t := by
    cases t with
    | nil => exact ⟨rfl, rfl⟩
    | cons c t =>
        have hc : isBackslash c = false := by simpa [isBackslash] using h
        simp [hc]
  simp only [backslashedTag, List.takeWhile_append_of_pos hall, List.dropWhile_append_of_pos hall, htaken,
    List.append_nil]

theorem IsTag.ne_nil {tag : Text} (h : IsTag tag) : tag ≠ [] := by
  obtain ⟨c, inner, rfl, -⟩ := h
  exact List.cons_ne_nil _ _

theorem IsTag.head? {tag : Text} (h : IsTag tag) (rest : Text) : (tag ++ rest).head? = some '[' := by
  obtain ⟨c, inner, rfl, -⟩ := h
  rfl

theorem backslashedTag_of_isTag (before : Option Char) (n : Nat) {tag : Text} (h : IsTag tag) (rest : Text) :
    backslashedTag before (slashes n ++ tag ++ rest) = some ((slashes n, tag), slashes n ++ tag) := by
  rw [List.append_assoc, backslashedTag_slashes before n (by rw [h.head? rest]; decide),
    tag?_eq_some_iff.mpr ⟨h, List.prefix_append tag rest⟩]
  rfl

theorem backslashedTag_eq_some_iff {before : Option Char} {t s tag raw : Text} :
    backslashedTag before t = some ((s, tag), raw) ↔
      ∃ n, s = slashes n ∧ raw = slashes n ++ tag ∧ IsTag tag ∧ raw <+: t := by
  constructor
  · intro h
    obtain ⟨n, rest, rfl, hrest⟩ := exists_slashes t
    rw [backslashedTag_slashes before n hrest] at h
    obtain ⟨tag', htag, heq⟩ := Option.map_eq_some_iff.mp h
    simp only [Prod.mk.injEq] at heq
    obtain ⟨⟨rfl, rfl⟩, rfl⟩ := heq
    obtain ⟨his, hfront⟩ := tag?_eq_some_iff.mp htag
    exact ⟨n, rfl, rfl, his, List.prefix_append_right_inj _ |>.mpr hfront⟩
  · rintro ⟨n, rfl, rfl, his, rest, rfl⟩
    exact backslashedTag_of_isTag before n his rest

theorem backslashedTag_isProper : backslashedTag.IsProper := by
  rintro before t ⟨s, tag⟩ raw h
  obtain ⟨n, rfl, rfl, ⟨c, inner, rfl, -⟩, hfront⟩ := backslashedTag_eq_some_iff.mp h
  exact ⟨by simp, hfront⟩

/-! ## Reading a text -/

/-- A word in brackets with the number of the backslashes before it, and the place where these start. -/
structure Mark where
  slashes : Nat
  tag : Text
  start : Nat
  deriving Repr, DecidableEq

namespace Mark

/-- The backslashes and the word. -/
def raw (m : Mark) : Text :=
  Console.slashes m.slashes ++ m.tag

/-- The place behind the word. -/
def stop (m : Mark) : Nat :=
  m.start + m.raw.length

/-- Whether the word is taken for a tag. -/
def isActive (m : Mark) : Bool :=
  m.slashes % 2 == 0

/-- A mark stands at its place, with all the backslashes before its word. -/
structure ReadAt (text : Text) (m : Mark) : Prop where
  isTag : IsTag m.tag
  here : m.raw <+: text.drop m.start
  whole : ∀ p, m.start = p + 1 → text[p]? ≠ some '\\'

/-- The marks that are met from left to right: each can be read at its place, they stand in order and do not overlap,
and every other mark that can be read starts inside one of them. -/
def Scan (text : Text) (marks : List Mark) : Prop :=
  Text.Cover (ReadAt text) (fun p => ∃ m, ReadAt text m ∧ m.start = p) start stop marks

def ofOccurrence (o : Occurrence (Text × Text)) : Mark where
  slashes := o.value.1.length
  tag := o.value.2
  start := o.start

/-- The marks that the console finds. -/
def findAll (text : Text) : List Mark :=
  (text.occurrences backslashedTag).map ofOccurrence

theorem ofOccurrence_of_mem {text : Text} {o : Occurrence (Text × Text)} (h : o ∈ text.occurrences backslashedTag) :
    IsTag (ofOccurrence o).tag ∧ (ofOccurrence o).raw = o.raw ∧ o.raw <+: text.drop o.start := by
  obtain ⟨n, hs, hraw, his, hfront⟩ := backslashedTag_eq_some_iff.mp (Text.recognized_of_mem_occurrences h)
  refine ⟨his, ?_, hfront⟩
  rw [hraw, raw, ofOccurrence, hs, length_slashes]

theorem stop_of_mem {text : Text} {o : Occurrence (Text × Text)} (h : o ∈ text.occurrences backslashedTag) :
    (ofOccurrence o).stop = o.stop := by
  rw [stop, (ofOccurrence_of_mem h).2.1]
  rfl

/-- A find ends with a bracket. -/
theorem getElem?_of_stop {text : Text} {o : Occurrence (Text × Text)} (h : o ∈ text.occurrences backslashedTag)
    {p : Nat} (hp : o.stop = p + 1) : text[p]? = some ']' := by
  obtain ⟨⟨c, inner, htag, -⟩, hraw, rest, hrest⟩ := ofOccurrence_of_mem h
  have hsplit : o.raw = (Console.slashes (ofOccurrence o).slashes ++ '[' :: c :: inner) ++ [']'] := by
    rw [← hraw, raw, htag]
    simp
  rw [hsplit, List.append_assoc] at hrest
  have hplace : p = o.start + (Console.slashes (ofOccurrence o).slashes ++ '[' :: c :: inner).length := by
    rw [Occurrence.stop, hsplit, List.length_append, ← Nat.add_assoc] at hp
    exact (Nat.add_right_cancel hp).symm
  rw [hplace]
  exact (Text.drop_eq_cons_iff.mp (Text.drop_add_of_drop hrest.symm rfl)).1

/-- No find starts in the middle of a run of backslashes: the bracket behind the run is also met from the backslash
before it, so that an earlier find would have to end there, and a find ends with a bracket. -/
theorem whole_of_mem {text : Text} {o : Occurrence (Text × Text)} (h : o ∈ text.occurrences backslashedTag) {p : Nat}
    (hp : o.start = p + 1) : text[p]? ≠ some '\\' := by
  intro hslash
  obtain ⟨his, hraw, rest, hrest⟩ := ofOccurrence_of_mem h
  have hdrop : text.drop p = Console.slashes ((ofOccurrence o).slashes + 1) ++ (ofOccurrence o).tag ++ rest := by
    rw [Text.drop_eq_cons_iff.mpr ⟨hslash, rfl⟩, ← hp, ← hrest, ← hraw]
    rfl
  have hr := backslashedTag_of_isTag (Text.lastBefore none (text.take p)) ((ofOccurrence o).slashes + 1) his rest
  rw [← hdrop] at hr
  obtain ⟨earlier, hmem, hle, hlt⟩ := Text.exists_mem_occurrences_drop backslashedTag_isProper hr
  have hstop := Text.stop_le_start_of_mem backslashedTag_isProper hmem h (by omega)
  rw [getElem?_of_stop hmem (by omega)] at hslash
  contradiction

theorem findAll_scan (text : Text) : Scan text (findAll text) := by
  refine Text.Cover.of_occurrences backslashedTag_isProper (fun o ho => ⟨rfl, stop_of_mem ho⟩) ?_ ?_
  · intro o ho
    obtain ⟨his, hraw, hfront⟩ := ofOccurrence_of_mem ho
    exact ⟨his, hraw ▸ hfront, fun p hp => whole_of_mem ho hp⟩
  · rintro p ⟨m, ⟨his, ⟨rest, hrest⟩, -⟩, rfl⟩
    have hr := backslashedTag_of_isTag (Text.lastBefore none (text.take m.start)) m.slashes his rest
    rw [show Console.slashes m.slashes ++ m.tag ++ rest = text.drop m.start from hrest] at hr
    exact ⟨_, hr⟩

/-- What can be read at a place is one mark at most. -/
theorem ReadAt.unique {text : Text} {a b : Mark} (ha : ReadAt text a) (hb : ReadAt text b) (h : a.start = b.start) :
    a = b := by
  obtain ⟨ra, hra⟩ := ha.here
  obtain ⟨rb, hrb⟩ := hb.here
  have hfound := backslashedTag_of_isTag none a.slashes ha.isTag ra
  rw [show Console.slashes a.slashes ++ a.tag ++ ra = Console.slashes b.slashes ++ b.tag ++ rb by
    rw [← raw, ← raw, hra, hrb, h], backslashedTag_of_isTag none b.slashes hb.isTag rb] at hfound
  simp only [Option.some.injEq, Prod.mk.injEq] at hfound
  have hlength := congrArg List.length hfound.1.1
  rw [length_slashes, length_slashes] at hlength
  cases a
  cases b
  simp_all

/-- The console finds exactly the marks that are met from left to right. -/
theorem Scan.eq_findAll {text : Text} {marks : List Mark} (h : Scan text marks) : marks = findAll text :=
  Text.Cover.unique (fun m hm => ⟨m, hm, rfl⟩) (fun _ _ ha hb => ha.unique hb) h (findAll_scan text)

end Mark

end Accessibility.Console
