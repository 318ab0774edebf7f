/-
Escaped Markdown read back. A reading goes from left to right and takes a backslash
together with the character behind it, for which the two stand (`unescape`); where it
comes to stand (`Reached`), it reads what is in front apart from what is behind
(`Reached.unescape_append`). Escaped text is so read as its graphic characters
(`unescape_escape`): the reading stands where what is written for one character ends
and what is written for the next begins (`reached_shield`), and nowhere else
(`Reached.exists_shielded`), so it takes no backslash for another one.
-/
import DiceNotation.Proofs.LiteralMarkdown

namespace DiceNotation.Text.Markdown

/-- What a text says, each backslash and the character behind it standing for that character. -/
def unescape : List Char → List Char
  | [] => []
  | [c] => [c]
  | c :: d :: cs => if c = '\\' then d :: unescape cs else c :: unescape (d :: cs)

/-- A reading of `before ++ after` comes to stand between the two. It takes a backslash and the
character behind it in one step, and any other character in a step of its own. -/
inductive Reached : List Char → List Char → Prop
  | start : Reached [] text
  | pair : Reached before ('\\' :: c :: after) → Reached (before ++ ['\\', c]) after
  | single : c ≠ '\\' → Reached before (c :: after) → Reached (before ++ [c]) after

/-- The characters of a text that leave a mark or a blank. -/
def graphic (s : String) : List Char := s.toList.filter isGraphic

/-- What is written for a graphic character. -/
def shield (c : Char) : List Char := if isPunctuation c then ['\\', c] else [c]

variable {c : Char} {s t : String} {before after cs : List Char}

theorem shield_of_punctuation (hp : isPunctuation c = true) : shield c = ['\\', c] := by
  simp [shield, hp]

theorem shield_of_plain (hp : isPunctuation c = false) : shield c = [c] := by
  simp [shield, hp]

theorem toList_escape (s : String) : (escape s).toList = (graphic s).flatMap shield := by
  rw [escape, String.toList_ofList, graphic]
  induction s.toList with
  | nil => rfl
  | cons c cs ih =>
    cases hg : isGraphic c with
    | false => simp [escapedChar, hg, ih]
    | true => simp [escapedChar, shield, hg, ih]

/-! ## What is read -/

theorem unescape_pair : unescape ('\\' :: c :: cs) = c :: unescape cs := by
  rw [unescape, if_pos rfl]

theorem unescape_single (hc : c ≠ '\\') : unescape (c :: cs) = c :: unescape cs := by
  cases cs with
  | nil => rfl
  | cons d ds => rw [unescape, if_neg hc]

theorem unescape_shield (c : Char) (cs : List Char) :
    unescape (shield c ++ cs) = c :: unescape cs := by
  cases hp : isPunctuation c with
  | false =>
    rw [shield_of_plain hp]
    exact unescape_single (ne_backslash hp)
  | true =>
    rw [shield_of_punctuation hp]
    exact unescape_pair

/-- **Escaped text is read back** as its graphic characters. -/
theorem unescape_escape (s : String) : unescape (escape s).toList = graphic s := by
  rw [toList_escape]
  induction graphic s with
  | nil => rfl
  | cons c cs ih => rw [List.flatMap_cons, unescape_shield, ih]

/-- A control between a backslash and an asterisk leaves both where they are. -/
example : unescape (escape "\\\x07*").toList = ['\\', '*'] := by decide

theorem escape_eq_iff : escape s = escape t ↔ graphic s = graphic t := by
  constructor
  · intro h
    rw [← unescape_escape s, ← unescape_escape t, h]
  · intro h
    rw [← String.toList_inj, toList_escape, toList_escape, h]

/-! ## Where a reading stands -/

/-- What stands in front of a place that a reading comes to is read apart from what stands behind
it. -/
theorem Reached.unescape_append (h : Reached before after) (cs : List Char) :
    unescape (before ++ cs) = unescape before ++ unescape cs := by
  induction h generalizing cs with
  | start => rfl
  | @pair before c after _ ih =>
    have hpair (cs : List Char) : unescape (before ++ ('\\' :: c :: cs)) =
        unescape before ++ c :: unescape cs := by
      rw [ih, unescape_pair]
    rw [List.append_assoc, hpair [], List.append_assoc]
    exact hpair cs
  | @single c before after hc _ ih =>
    have hsingle (cs : List Char) : unescape (before ++ c :: cs) =
        unescape before ++ c :: unescape cs := by
      rw [ih, unescape_single hc]
    rw [List.append_assoc, hsingle [], List.append_assoc]
    exact hsingle cs

theorem Reached.trans (h : Reached before (cs ++ after)) (h' : Reached cs after) :
    Reached (before ++ cs) after := by
  induction h' with
  | start => simpa using h
  | pair _ ih =>
    rw [← List.append_assoc]
    exact .pair (ih (by simpa using h))
  | single hc _ ih =>
    rw [← List.append_assoc]
    exact .single hc (ih (by simpa using h))

theorem reached_shield (c : Char) (after : List Char) : Reached (shield c) after := by
  cases hp : isPunctuation c with
  | false =>
    rw [shield_of_plain hp]
    exact .single (ne_backslash hp) .start
  | true =>
    rw [shield_of_punctuation hp]
    exact .pair .start

theorem exists_of_backslash (h : cs.flatMap shield = '\\' :: after) :
    ∃ d back, cs = d :: back ∧ isPunctuation d = true ∧ after = d :: back.flatMap shield := by
  cases cs with
  | nil => cases h
  | cons d back =>
    rw [List.flatMap_cons] at h
    cases hp : isPunctuation d with
    | false =>
      rw [shield_of_plain hp] at h
      exact absurd (List.cons.inj h).1 (ne_backslash hp)
    | true =>
      rw [shield_of_punctuation hp] at h
      exact ⟨d, back, rfl, hp, (List.cons.inj h).2.symm⟩

theorem exists_of_single (hc : c ≠ '\\') (h : cs.flatMap shield = c :: after) :
    ∃ back, cs = c :: back ∧ shield c = [c] ∧ after = back.flatMap shield := by
  cases cs with
  | nil => cases h
  | cons d back =>
    rw [List.flatMap_cons] at h
    cases hp : isPunctuation d with
    | false =>
      have hplain := shield_of_plain hp
      rw [hplain] at h
      obtain ⟨rfl, hafter⟩ := List.cons.inj h
      exact ⟨back, rfl, hplain, hafter.symm⟩
    | true =>
      rw [shield_of_punctuation hp] at h
      exact absurd (List.cons.inj h).1.symm hc

/-- A reading of escaped text stands where what is written for a character ends, nowhere else. -/
theorem Reached.exists_shielded (h : Reached before after)
    (hcs : before ++ after = cs.flatMap shield) : ∃ front back, cs = front ++ back ∧
      before = front.flatMap shield ∧ after = back.flatMap shield := by
  induction h with
  | start => exact ⟨[], cs, rfl, rfl, hcs⟩
  | @pair before c after _ ih =>
    obtain ⟨front, back, rfl, rfl, hback⟩ := ih (by simpa using hcs)
    obtain ⟨d, rest, rfl, hp, hd⟩ := exists_of_backslash hback.symm
    obtain ⟨rfl, rfl⟩ := List.cons.inj hd
    refine ⟨front ++ [c], rest, by simp, ?_, rfl⟩
    simp [shield_of_punctuation hp]
  | @single c before after hc _ ih =>
    obtain ⟨front, back, rfl, rfl, hback⟩ := ih (by simpa using hcs)
    obtain ⟨rest, rfl, hplain, rfl⟩ := exists_of_single hc hback.symm
    refine ⟨front ++ [c], rest, by simp, ?_, rfl⟩
    simp [hplain]

/-- Punctuation that is written is a backslash at which a reading stands, or is right behind one. -/
theorem reached_of_punctuation (hcs : cs.flatMap shield = before ++ c :: after)
    (hp : isPunctuation c = true) : (c = '\\' ∧ Reached before (c :: after)) ∨
      ∃ front, before = front ++ ['\\'] ∧ Reached front ('\\' :: c :: after) := by
  induction cs generalizing before with
  | nil => simp at hcs
  | cons d cs ih =>
    rw [List.flatMap_cons] at hcs
    -- Punctuation farther on is met by a reading that has come past `d`.
    have hlater {rest : List Char} (hbefore : before = shield d ++ rest)
        (hrest : cs.flatMap shield = rest ++ c :: after) :
        (c = '\\' ∧ Reached before (c :: after)) ∨
          ∃ front, before = front ++ ['\\'] ∧ Reached front ('\\' :: c :: after) := by
      subst hbefore
      rcases ih hrest with ⟨hc, hr⟩ | ⟨front, rfl, hr⟩
      · exact .inl ⟨hc, (reached_shield d _).trans hr⟩
      · exact .inr ⟨shield d ++ front, by simp, (reached_shield d _).trans hr⟩
    cases hd : isPunctuation d with
    | false =>
      rw [shield_of_plain hd] at hcs hlater
      cases before with
      | nil =>
        obtain ⟨rfl, -⟩ := List.cons.inj hcs
        simp [hd] at hp
      | cons b before =>
        obtain ⟨rfl, hrest⟩ := List.cons.inj hcs
        exact hlater rfl hrest
    | true =>
      rw [shield_of_punctuation hd] at hcs hlater
      match before with
      | [] =>
        obtain ⟨rfl, -⟩ := List.cons.inj hcs
        exact .inl ⟨rfl, .start⟩
      | [b] =>
        obtain ⟨rfl, -⟩ := List.cons.inj hcs
        exact .inr ⟨[], rfl, .start⟩
      | b :: b' :: before =>
        obtain ⟨rfl, htail⟩ := List.cons.inj hcs
        obtain ⟨rfl, hrest⟩ := List.cons.inj htail
        exact hlater rfl hrest

/-- **Escaping can be undone** up to the characters that it leaves out. Escaped text is read back as
its graphic characters; each backslash that the reading meets has ASCII punctuation behind it, and
all ASCII punctuation of escaped text is a backslash that it meets or stands right behind one. So
two texts are shown alike exactly if they have the same graphic characters in the same order. -/
theorem escape_reversible :
    (∀ s : String, unescape (escape s).toList = graphic s) ∧
    (∀ (s : String) (before after : List Char), (escape s).toList = before ++ '\\' :: after →
      Reached before ('\\' :: after) →
        ∃ c rest, after = c :: rest ∧ isPunctuation c = true) ∧
    (∀ (s : String) (before after : List Char) (c : Char),
      (escape s).toList = before ++ c :: after → isPunctuation c = true →
        (c = '\\' ∧ Reached before (c :: after)) ∨
          ∃ front, before = front ++ ['\\'] ∧ Reached front ('\\' :: c :: after)) ∧
    ∀ s t : String, escape s = escape t ↔ graphic s = graphic t := by
  refine ⟨unescape_escape, ?_, ?_, fun s t => escape_eq_iff⟩
  · intro s before after hs hr
    rw [toList_escape] at hs
    obtain ⟨front, back, -, -, hback⟩ := hr.exists_shielded hs.symm
    obtain ⟨c, rest, -, hp, rfl⟩ := exists_of_backslash hback.symm
    exact ⟨c, _, rfl, hp⟩
  · intro s before after c hs hp
    rw [toList_escape] at hs
    exact reached_of_punctuation hs hp

end DiceNotation.Text.Markdown
