/-
The dice that an evaluation asks for. A roller that records what is asked of it
follows the roller that it records, so the record is that of any evaluation. If a
term has a value, its dice were asked for from left to right, each leaf for as
many as it counts. If it has none, there is a node at which evaluation fails, and
nothing was asked for behind it: the leaves before it are complete, and the node
itself adds dice only if it is a leaf whose sum is too large, up to the die at
which it is (`draws_in_order`).
-/
import DiceNotation.Proofs.ExactArithmetic
import DiceNotation.Proofs.Following
import DiceNotation.Roller.Loaded

namespace DiceNotation

variable {σ τ : Type}

/-- A die that was asked for, by its faces, and the die that was given. -/
structure Draw where
  faces : UInt64
  die : UInt64
  deriving DecidableEq, Repr

def Draw.request (d : Draw) : Int := d.faces.toNat

/-- The points of dice, all together. -/
def points (draws : List Draw) : Int := (draws.map fun d => (d.die.toNat : Int)).sum

/-- The same roller, with a record of the dice asked of it, the last at the end. -/
def Roller.recorded (r : Roller σ) : Roller (σ × List Draw) where
  die := fun faces s =>
    let (die, t) := r.die faces s.1
    (die, t, s.2 ++ [⟨faces, die⟩])

/-- The cup without the record of its dice. -/
def Cup.unrecorded (cup : Cup (σ × List Draw)) : Cup σ := cup.mapDice Prod.fst

theorem Roller.recorded_follows (r : Roller σ) : r.recorded.Follows Prod.fst r := fun _ _ => rfl

theorem Term.eval_recorded (r : Roller σ) (term : Term) (cup : Cup (σ × List Draw)) :
    term.eval r cup.unrecorded =
      ((term.eval r.recorded cup).1, (term.eval r.recorded cup).2.unrecorded) :=
  eval_mapDice r.recorded_follows term cup

/-! ## What a term asks for -/

/-- Dice as they are written in a term. -/
structure Leaf where
  count : Int64
  faces : Int64
  deriving DecidableEq, Repr

/-- The number of dice. A negative count is none. -/
def Leaf.dice (l : Leaf) : Nat := l.count.toInt.toNat

/-- What leaves ask for, one request a die. -/
def requests (leaves : List Leaf) : List Int :=
  leaves.flatMap fun l => List.replicate l.dice l.faces.toInt

/-- The dice leaves of a term from left to right. -/
def Term.leaves : Term → List Leaf
  | .int _ => []
  | .dice count faces => [⟨count, faces⟩]
  | .binary left _ right => left.leaves ++ right.leaves

/-- Evaluation fails with `e` at the node `node`, where `before` are the leaves of the term that are
evaluated before it. -/
inductive Term.FailsAt (r : Roller σ) : Term → Cup σ → List Leaf → Term → DomainError → Prop
  | dice {count faces : Int64} {cup cup' : Cup σ} {e : DomainError} :
    cup.roll r count faces = (.error e, cup') →
    FailsAt r (.dice count faces) cup [] (.dice count faces) e
  | left {left right node : Term} {op : Operator} {cup : Cup σ} {before : List Leaf}
      {e : DomainError} :
    FailsAt r left cup before node e → FailsAt r (.binary left op right) cup before node e
  | right {left right node : Term} {op : Operator} {cup cup' : Cup σ} {before : List Leaf}
      {x : Int64} {e : DomainError} :
    left.eval r cup = (.ok x, cup') → FailsAt r right cup' before node e →
    FailsAt r (.binary left op right) cup (left.leaves ++ before) node e
  | node {left right : Term} {op : Operator} {cup cup' cup'' : Cup σ} {x y : Int64}
      {e : DomainError} :
    left.eval r cup = (.ok x, cup') → right.eval r cup' = (.ok y, cup'') →
    op.apply x y = .error e →
    FailsAt r (.binary left op right) cup (left.leaves ++ right.leaves) (.binary left op right) e

/-- The dice that fall at the node where evaluation fails with `e`: none, unless it is a leaf whose
sum is too large, and then all up to the die at which the sum comes to be so. -/
inductive Term.LastDice : Term → DomainError → List Draw → Prop
  | nothing {node : Term} {e : DomainError} :
    (∀ count faces, node = .dice count faces → e ≠ .overflow) → LastDice node e []
  | overflow {count faces : Int64} {draws : List Draw} {last : Draw} :
    draws.length < count.toInt.toNat → (∀ d ∈ draws ++ [last], d.request = faces.toInt) →
    Fits (points draws) → ¬ Fits (points (draws ++ [last])) →
    LastDice (.dice count faces) .overflow (draws ++ [last])

/-! ## The dice of a sum -/

/-- What a sum of dice behind `total` asks for: all of them if it is in range, and otherwise those up
to the one at which it leaves the range. -/
inductive Summed (faces : UInt64) (total : Int64) (count : Nat) : Option Int64 → List Draw → Prop
  | inRange {x : Int64} {draws : List Draw} : draws.length = count →
    (∀ d ∈ draws, d.faces = faces) → Summed faces total count (some x) draws
  | outOfRange {draws : List Draw} {last : Draw} : draws.length < count →
    (∀ d ∈ draws ++ [last], d.faces = faces) → Fits (total.toInt + points draws) →
    ¬ Fits (total.toInt + points (draws ++ [last])) →
    Summed faces total count none (draws ++ [last])

theorem points_cons (d : Draw) (draws : List Draw) :
    points (d :: draws) = d.die.toNat + points draws := List.sum_cons

theorem Summed.cons {faces die : UInt64} {total total' : Int64} {count : Nat} {sum : Option Int64}
    {draws : List Draw} (ht : total'.toInt = total.toInt + die.toNat)
    (h : Summed faces total' count sum draws) :
    Summed faces total (count + 1) sum (⟨faces, die⟩ :: draws) := by
  have hpoints (ds : List Draw) :
      total.toInt + points (⟨faces, die⟩ :: ds) = total'.toInt + points ds := by
    rw [ht, points_cons, Int.add_assoc]
  cases h with
  | inRange hl hf => exact .inRange (congrArg (· + 1) hl) (List.forall_mem_cons.2 ⟨rfl, hf⟩)
  | outOfRange hl hf hin hout =>
    rw [← List.cons_append]
    refine .outOfRange (Nat.succ_lt_succ hl) (List.forall_mem_cons.2 ⟨rfl, hf⟩) ?_ ?_
    · rwa [hpoints]
    · rwa [List.cons_append, hpoints]

theorem fits_toInt (x : Int64) : Fits x.toInt := ⟨x.le_toInt, x.toInt_lt⟩

theorem Roller.summed (r : Roller σ) (faces : UInt64) (total : Int64) (count : Nat)
    (s : σ × List Draw) : ∃ draws,
      (r.recorded.sumFrom faces total count s).2.2 = s.2 ++ draws ∧
        Summed faces total count (r.recorded.sumFrom faces total count s).1 draws := by
  induction count generalizing total s with
  | zero => exact ⟨[], (List.append_nil _).symm, .inRange rfl nofun⟩
  | succ count ih =>
    have hdraw : (r.recorded.die faces s).2.2 = s.2 ++ [⟨faces, (r.die faces s.1).1⟩] := rfl
    have hdie : (r.recorded.die faces s).1 = (r.die faces s.1).1 := rfl
    rw [sumFrom_succ]
    split
    next hfit =>
      refine ⟨[] ++ [_], hdraw, .outOfRange (Nat.succ_pos _) (by simp) ?_ ?_⟩
      · simpa [points] using fits_toInt total
      · rw [hdie] at hfit
        simpa [points] using Arithmetic.fit?_eq_none_iff_not_fits.1 hfit
    next total' hfit =>
      rw [hdie] at hfit
      obtain ⟨draws, hdraws, hsum⟩ := ih total' (r.recorded.die faces s).2
      refine ⟨_ :: draws, ?_, hsum.cons (Arithmetic.fit?_eq_some_iff.1 hfit)⟩
      rw [hdraws, hdraw, List.append_assoc]
      rfl

/-! ## The dice of an evaluation -/

/-- What falls in an evaluation from one cup to another, by what comes of it. -/
inductive Term.Draws (r : Roller τ) (term : Term) (cup cup' : Cup τ) :
    Except DomainError Int64 → List Draw → Prop
  | value {x : Int64} {draws : List Draw} :
    draws.map Draw.request = requests term.leaves →
    cup'.rolls.toNat = min (2 ^ 64 - 1)
      (cup.rolls.toNat + (term.leaves.map Leaf.dice).sum) →
    Draws r term cup cup' (.ok x) draws
  | failure {before : List Leaf} {node : Term} {e : DomainError} {draws last : List Draw} :
    FailsAt r term cup before node e →
    draws.map Draw.request = requests before → LastDice node e last →
    Draws r term cup cup' (.error e) (draws ++ last)

theorem Cup.Rolled.draws_of_error {r : Roller (σ × List Draw)} {count faces : Int64}
    {cup cup' : Cup (σ × List Draw)} {e : DomainError}
    (h : Rolled r count faces cup (.error e) cup') (he : e ≠ .overflow)
    (hdice : cup'.dice = cup.dice) : ∃ draws, cup'.dice.2 = cup.dice.2 ++ draws ∧
      Term.Draws r (.dice count faces) cup cup' (.error e) draws := by
  refine ⟨[] ++ [], ?_, .failure (.dice h.eq) rfl (.nothing fun _ _ _ => he)⟩
  rw [hdice, List.append_nil, List.append_nil]

theorem request_of_faces {d : Draw} {faces : Int64} (hf : 0 < faces.toInt)
    (hd : d.faces = faces.toUInt64) : d.request = faces.toInt := by
  have hn : faces.toUInt64.toNat = faces.toInt.toNat :=
    Int64.toNat_toUInt64_of_le (Int64.le_iff_toInt_le.2 (Int.le_of_lt hf))
  rw [Draw.request, hd, hn]
  omega

theorem Cup.Rolled.draws {r : Roller σ} {count faces : Int64} {cup cup' : Cup (σ × List Draw)}
    {outcome : Except DomainError Int64} (h : Rolled r.recorded count faces cup outcome cup') :
    ∃ draws, cup'.dice.2 = cup.dice.2 ++ draws ∧
      Term.Draws r.recorded (.dice count faces) cup cup' outcome draws := by
  obtain ⟨draws, hdraws, hsum⟩ := r.summed faces.toUInt64 0 count.toUInt64.toNat cup.dice
  rw [← Roller.sum] at hdraws hsum
  cases h with
  | invalidFaces hf => exact draws_of_error (.invalidFaces hf) (by simp) rfl
  | negativeCount hf hc => exact draws_of_error (.negativeCount hf hc) (by simp) rfl
  | refused hd ho => exact draws_of_error (.refused hd ho) (by simp) rfl
  | overflow hd ho hs =>
    have hroll := (Rolled.overflow hd ho hs).eq
    rw [hs, hd.toNat_count] at hsum
    rw [hs] at hdraws
    refine ⟨[] ++ draws, hdraws, .failure (.dice hroll) rfl ?_⟩
    cases hsum with
    | outOfRange hl hf hin hout =>
      rw [Int64.toInt_zero, Int.zero_add] at hin hout
      exact .overflow hl (fun d hmem => request_of_faces hd.1 (hf d hmem)) hin hout
  | total hd ho hs =>
    rw [hs, hd.toNat_count] at hsum
    rw [hs] at hdraws
    refine ⟨draws, hdraws, .value ?_ (hd.rolls_charge cup)⟩
    cases hsum with
    | inRange hl hf =>
      have hrequest : ∀ d ∈ draws, d.request = faces.toInt :=
        fun d hmem => request_of_faces hd.1 (hf d hmem)
      rw [List.map_congr_left hrequest, List.map_const', hl]
      exact (List.append_nil _).symm

theorem requests_append (ls ls' : List Leaf) : requests (ls ++ ls') = requests ls ++ requests ls' :=
  List.flatMap_append

/-- **What falls in an evaluation**, node by node. -/
theorem Term.Evaluates.draws {r : Roller σ} {term : Term} {cup cup' : Cup (σ × List Draw)}
    {outcome : Except DomainError Int64} (h : Evaluates r.recorded term cup outcome cup') :
    ∃ draws, cup'.dice.2 = cup.dice.2 ++ draws ∧ Draws r.recorded term cup cup' outcome draws := by
  -- Draws are put together as leaves are: those of the left operand, which are complete wherever the
  -- right one is come to, and then those of the right one.
  induction h with
  | @int _ cup =>
    refine ⟨[], (List.append_nil _).symm, .value rfl ?_⟩
    have := cup.rolls.toNat_lt
    simp only [leaves, List.map_nil, List.sum_nil]
    omega
  | dice h => exact h.draws
  | left _ ih =>
    obtain ⟨_, hdraws, hd⟩ := ih
    cases hd with
    | failure hf hb hl => exact ⟨_, hdraws, .failure (.left hf) hb hl⟩
  | right hleft _ ihl ihr =>
    obtain ⟨draws, hdraws, hd⟩ := ihl
    obtain ⟨_, hdraws', hd'⟩ := ihr
    cases hd with
    | value hv _ =>
      cases hd' with
      | @failure _ _ _ draws' last hf hb hl =>
        refine ⟨draws ++ draws' ++ last, ?_, .failure (.right hleft.eq hf) ?_ hl⟩
        · rw [hdraws', hdraws, List.append_assoc, List.append_assoc]
        · rw [List.map_append, hv, hb, requests_append]
  | @node left right op _ _ _ x y hleft hright ihl ihr =>
    obtain ⟨draws, hdraws, hd⟩ := ihl
    obtain ⟨draws', hdraws', hd'⟩ := ihr
    cases hd with
    | value hv hrolls =>
      cases hd' with
      | value hv' hrolls' =>
        have hall : (draws ++ draws').map Draw.request = requests (left.leaves ++ right.leaves) := by
          rw [List.map_append, hv, hv', requests_append]
        refine ⟨draws ++ draws', by rw [hdraws', hdraws, List.append_assoc], ?_⟩
        cases hop : op.apply x y with
        | ok z =>
          refine .value hall ?_
          rw [leaves, List.map_append, List.sum_append]
          omega
        | error e =>
          -- The operator itself fails, behind the dice of both operands.
          rw [← List.append_nil (draws ++ draws')]
          exact .failure (.node hleft.eq hright.eq hop) hall (.nothing nofun)

/-! ## Nothing falls behind a failure -/

theorem requests_isPrefix {ls ls' : List Leaf} (h : ls <+: ls') : requests ls <+: requests ls' := by
  obtain ⟨more, rfl⟩ := h
  rw [requests_append]
  exact List.prefix_append _ _

/-- The leaves before the node stand at the front of the term, and those before a leaf in front of
it. -/
theorem Term.FailsAt.isPrefix {r : Roller τ} {term node : Term} {cup : Cup τ} {before : List Leaf}
    {e : DomainError} (h : FailsAt r term cup before node e) : before <+: term.leaves ∧
      ∀ count faces, node = .dice count faces → before ++ [⟨count, faces⟩] <+: term.leaves := by
  induction h with
  | dice =>
    refine ⟨List.nil_prefix, fun count faces hn => ?_⟩
    cases hn
    exact List.prefix_rfl
  | @left left right _ _ _ _ _ _ ih =>
    have hleft : left.leaves <+: left.leaves ++ right.leaves := List.prefix_append _ _
    exact ⟨ih.1.trans hleft, fun count faces hn => (ih.2 count faces hn).trans hleft⟩
  | right _ _ ih =>
    refine ⟨(List.prefix_append_right_inj _).2 ih.1, fun count faces hn => ?_⟩
    rw [List.append_assoc]
    exact (List.prefix_append_right_inj _).2 (ih.2 count faces hn)
  | node => exact ⟨List.prefix_rfl, nofun⟩

/-- What falls up to a failure are the first of the dice that the term asks for. -/
theorem Term.FailsAt.draws_isPrefix {r : Roller τ} {term node : Term} {cup : Cup τ}
    {before : List Leaf} {e : DomainError} {draws last : List Draw}
    (h : FailsAt r term cup before node e) (hd : draws.map Draw.request = requests before)
    (hl : LastDice node e last) : (draws ++ last).map Draw.request <+: requests term.leaves := by
  rw [List.map_append, hd]
  cases hl with
  | nothing =>
    rw [List.map_nil, List.append_nil]
    exact requests_isPrefix h.isPrefix.1
  | @overflow count faces ds d hlt hf =>
    refine List.IsPrefix.trans ?_ (requests_isPrefix (h.isPrefix.2 count faces rfl))
    rw [requests_append, List.prefix_append_right_inj, requests, List.flatMap_singleton,
      List.map_congr_left hf, List.map_const', List.prefix_replicate_iff]
    simp only [List.length_replicate, List.length_append, List.length_singleton, and_true]
    exact hlt

/-- **Dice are asked for in order and in the exact number.** If a term has a value, the requests are
those of its leaves from left to right and the count of the cup grows by as many. If it has none,
they are those of the leaves before the node at which evaluation fails and, if this is a leaf whose
sum is too large, its own up to the die at which the sum leaves the range. -/
theorem draws_in_order (r : Roller σ) (term : Term) (cup : Cup (σ × List Draw)) :
    term.eval r cup.unrecorded =
        ((term.eval r.recorded cup).1, (term.eval r.recorded cup).2.unrecorded) ∧
      ∃ draws, (term.eval r.recorded cup).2.dice.2 = cup.dice.2 ++ draws ∧
        (∀ x, (term.eval r.recorded cup).1 = .ok x →
          draws.map Draw.request = requests term.leaves ∧
            (term.eval r.recorded cup).2.rolls.toNat =
              min (2 ^ 64 - 1) (cup.rolls.toNat + (term.leaves.map Leaf.dice).sum)) ∧
        ∀ e, (term.eval r.recorded cup).1 = .error e →
          draws.map Draw.request <+: requests term.leaves ∧
            ∃ before node complete last, term.FailsAt r.recorded cup before node e ∧
              draws = complete ++ last ∧ complete.map Draw.request = requests before ∧
                node.LastDice e last := by
  refine ⟨term.eval_recorded r cup, ?_⟩
  obtain ⟨draws, hdraws, hd⟩ := (term.evaluates r.recorded cup).draws
  generalize (term.eval r.recorded cup).1 = outcome at hd ⊢
  refine ⟨draws, hdraws, ?_⟩
  cases hd with
  | value hv hrolls => exact ⟨fun _ _ => ⟨hv, hrolls⟩, nofun⟩
  | failure hf hb hl =>
    refine ⟨nofun, fun e he => ?_⟩
    cases he
    exact ⟨hf.draws_isPrefix hb hl, _, _, _, _, hf, rfl, hb, hl⟩

/-- The sum of the first leaf leaves the range at its second die. Neither its third die nor the other
leaf is asked for. -/
example : ((Term.binary (.dice 3 0x7FFFFFFFFFFFFFFF) .add (.dice 1 6)).eval Roller.highest.recorded
    (.fresh none ((), []))).2.dice.2 =
      [⟨0x7FFFFFFFFFFFFFFF, 0x7FFFFFFFFFFFFFFF⟩, ⟨0x7FFFFFFFFFFFFFFF, 0x7FFFFFFFFFFFFFFF⟩] := by
  decide +kernel

end DiceNotation
