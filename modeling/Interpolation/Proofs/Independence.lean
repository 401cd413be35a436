import Interpolation.Proofs.PathLaws
import Mathlib

/-!
# Assignments that do not meet

Two paths are disjoint if they start at different variables, or if at some step they select
different parts.  They may have a long beginning in common, which then is spelt in the same way up
to how entries of maps are named.  What an assignment does to a value is decided by the part that
its first step leads to, and it replaces that part at most.  So an assignment to one path is not
seen from the other, neither in what is read there nor in how it fails, and two assignments commute.

## Main definitions

- `Diverge`, `Path.Disjoint`: steps and paths that part ways.
- `Node.paths`: the paths that an expression reads.

## Main results

- `Value.exists_assign_cons`, `Path.exists_assign`: what decides an assignment, and what it changes.
- `Path.read_assign_of_disjoint`, `Path.assign_comm`: reading and assigning elsewhere.
- `assignments_independent`: the same of expressions.
-/

namespace Interpolation

/-! ## Layer A: steps that part ways -/

/-- At some step that both of them have, two lists of steps select differently. -/
def Diverge (as bs : List Accessor) : Prop :=
  ∃ (i : Nat) (a b : Accessor), as[i]? = some a ∧ bs[i]? = some b ∧ a.slot ≠ b.slot

namespace Diverge

variable {a b : Accessor} {as bs : List Accessor}

theorem symm (h : Diverge as bs) : Diverge bs as := by
  obtain ⟨i, a, b, ha, hb, hslot⟩ := h
  exact ⟨i, b, a, hb, ha, hslot.symm⟩

theorem not_nil_left (bs : List Accessor) : ¬ Diverge [] bs := by
  rintro ⟨i, a, b, ha, -, -⟩
  cases ha

theorem ne_nil_left (h : Diverge as bs) : as ≠ [] := by
  rintro rfl
  exact not_nil_left bs h

/-- Steps part ways at the first of them or behind it. -/
theorem cons_iff : Diverge (a :: as) (b :: bs) ↔ a.slot ≠ b.slot ∨ Diverge as bs := by
  constructor
  · rintro ⟨i, c, d, hc, hd, hslot⟩
    -- The step is the first one, or it is counted from the second.
    cases i with
    | zero =>
      obtain rfl : a = c := by simpa using hc
      obtain rfl : b = d := by simpa using hd
      exact .inl hslot
    | succ i => exact .inr ⟨i, c, d, by simpa using hc, by simpa using hd, hslot⟩
  · rintro (hslot | ⟨i, c, d, hc, hd, hslot⟩)
    · exact ⟨0, a, b, rfl, rfl, hslot⟩
    · exact ⟨i + 1, c, d, by simpa using hc, by simpa using hd, hslot⟩

end Diverge

/-! ## Layer B: one step -/

namespace Value

variable {value : Value} {a b : Accessor} {as bs : List Accessor}

theorem setChild_of_slot (h : a.slot = b.slot) (value x : Value) :
    value.setChild a x = value.setChild b x := by
  cases value <;> cases a <;> cases b <;> cases h <;> rfl

theorem setChild_of_not_suits (h : value.suits a = false) (x : Value) :
    value.setChild a x = value := by
  cases value <;> cases a <;> simp_all [suits, setChild]

theorem suits_setChild (value : Value) (a : Accessor) (x : Value) (b : Accessor) :
    (value.setChild a x).suits b = value.suits b := by
  cases value <;> cases a <;> cases b <;> rfl

theorem typeName_setChild (value : Value) (a : Accessor) (x : Value) :
    (value.setChild a x).typeName = value.typeName := by
  cases value <;> cases a <;> rfl

/-- Steps into the same value that select different parts select two entries or two items. -/
theorem exists_of_suits_of_ne (ha : value.suits a = true) (hb : value.suits b = true)
    (h : a.slot ≠ b.slot) :
    (∃ entries k l, value = map entries ∧ a.slot = .inl k ∧ b.slot = .inl l ∧ k ≠ l) ∨
      ∃ items i j, value = list items ∧ a.slot = .inr i ∧ b.slot = .inr j ∧ i ≠ j := by
  rcases exists_of_suits ha with ⟨entries, k, rfl, hk⟩ | ⟨items, i, rfl, hi⟩
  · rcases exists_of_suits hb with ⟨_, l, heq, hl⟩ | ⟨_, _, heq, -⟩
    · exact .inl ⟨entries, k, l, rfl, hk, hl, fun hkl => h (by rw [hk, hl, hkl])⟩
    · cases heq
  · rcases exists_of_suits hb with ⟨_, _, heq, -⟩ | ⟨_, j, heq, hj⟩
    · cases heq
    · exact .inr ⟨items, i, j, rfl, hi, hj, fun hij => h (by rw [hi, hj, hij])⟩

/-- A part that is replaced is not seen by a step that selects another one: neither in what the step
leads to nor in what keeps it from being taken. -/
theorem child_setChild_of_ne (h : a.slot ≠ b.slot) (value x : Value) :
    (value.setChild a x).child b = value.child b := by
  cases ha : value.suits a with
  | false => rw [setChild_of_not_suits ha]
  | true =>
    cases hb : value.suits b with
    | false =>
      have hb' := (suits_setChild value a x b).trans hb
      rw [child_of_not_suits hb, child_of_not_suits hb', typeName_setChild]
    | true =>
      -- Two entries of a map, or two items of a list.
      rcases exists_of_suits_of_ne ha hb h with ⟨entries, k, l, rfl, hk, hl, hne⟩ |
        ⟨items, i, j, rfl, hi, hj, hne⟩
      · rw [setChild_map hk, child_map hl, child_map hl, Dictionary.get?_insert_of_ne hne.symm]
      · rw [setChild_list hi, child_list hj, child_list hj, List.getElem?_set_ne hne,
          List.length_set]

/-- Different parts can be replaced in either order. -/
theorem setChild_comm (h : a.slot ≠ b.slot) (value x y : Value) :
    (value.setChild a x).setChild b y = (value.setChild b y).setChild a x := by
  cases ha : value.suits a with
  -- A step that does not suit puts nothing in, before or after the other one.
  | false =>
    have ha' := (suits_setChild value b y a).trans ha
    rw [setChild_of_not_suits ha, setChild_of_not_suits ha']
  | true =>
    cases hb : value.suits b with
    | false =>
      have hb' := (suits_setChild value a x b).trans hb
      rw [setChild_of_not_suits hb, setChild_of_not_suits hb']
    | true =>
      -- Two entries of a map, or two items of a list.
      rcases exists_of_suits_of_ne ha hb h with ⟨entries, k, l, rfl, hk, hl, hne⟩ |
        ⟨items, i, j, rfl, hi, hj, hne⟩
      · rw [setChild_map hk, setChild_map hl, setChild_map hl, setChild_map hk,
          Dictionary.insert_comm hne.symm]
      · rw [setChild_list hi, setChild_list hj, setChild_list hj, setChild_list hi,
          List.set_comm _ _ hne]

/-! ## Layer C: values -/

/-- The value with another part, if there is one to be put into it. -/
def putChild (value : Value) (a : Accessor) : Option Value → Value
  | none => value
  | some part => value.setChild a part

theorem child_putChild_of_ne (h : a.slot ≠ b.slot) (value : Value) (part? : Option Value) :
    (value.putChild a part?).child b = value.child b := by
  cases part? with
  | none => rfl
  | some part => exact child_setChild_of_ne h value part

/-- Parts can be put into different places in either order. -/
theorem putChild_comm (h : a.slot ≠ b.slot) (value : Value) (x? y? : Option Value) :
    (value.putChild a x?).putChild b y? = (value.putChild b y?).putChild a x? := by
  cases x? with
  | none => rfl
  | some x =>
    cases y? with
    | none => rfl
    | some y => exact setChild_comm h value x y

/-- The part that the first step leads to decides an assignment, and it is all that changes. -/
theorem exists_assign_cons (a : Accessor) (as : List Accessor) (new : Value)
    (child : Except AccessError (Option Value)) :
    ∃ outcome part?, ∀ value : Value, value.child a = child →
      value.assign (a :: as) new = (outcome, value.putChild a part?) := by
  -- What the step leads to is known, whatever else is in the value.
  cases child with
  | error e => exact ⟨.error e, none, fun value h => assign_of_child_error h as new⟩
  | ok part? =>
    cases part? with
    | none =>
      by_cases hlast : as = []
      · refine ⟨.ok (), some new, fun value h => ?_⟩
        rw [assign_of_child_none h, if_pos hlast]
        rfl
      · refine ⟨.error (.missingEntry a.name), none, fun value h => ?_⟩
        rw [assign_of_child_none h, if_neg hlast]
        rfl
    | some part =>
      exact ⟨(part.assign as new).1, some (part.assign as new).2,
        fun value h => assign_of_child_some h as new⟩

/-- Where the first step is not taken, or leads to a missing entry behind which more steps are to be
taken, an assignment fails. -/
theorem assign_eq_self_of_child (h : ∀ part, value.child a ≠ .ok (some part)) (has : as ≠ [])
    (new : Value) : ∃ e, value.assign (a :: as) new = (.error e, value) := by
  cases hchild : value.child a with
  | error e => exact ⟨e, assign_of_child_error hchild as new⟩
  | ok part? =>
    cases part? with
    | none =>
      refine ⟨.missingEntry a.name, ?_⟩
      rw [assign_of_child_none hchild, if_neg has]
    | some part => exact absurd hchild (h part)

theorem read_congr {value' : Value} (h : value.child a = value'.child a) (as : List Accessor) :
    value.read (a :: as) = value'.read (a :: as) := by
  rw [read, read, h]

/-- An assignment is not seen by steps that part ways with it. -/
theorem read_assign_of_diverge (h : Diverge as bs) (value new : Value) :
    (value.assign as new).2.read bs = value.read bs := by
  induction as generalizing value bs with
  | nil => exact absurd h (Diverge.not_nil_left bs)
  | cons a as ih =>
    obtain ⟨b, bs, rfl⟩ := List.exists_cons_of_ne_nil h.symm.ne_nil_left
    by_cases hslot : a.slot = b.slot
    · -- The first step is the same, so they part ways behind it.
      have hdiverge : Diverge as bs := (Diverge.cons_iff.mp h).resolve_left (absurd hslot)
      by_cases hpart : ∃ part, value.child a = .ok (some part)
      · obtain ⟨part, hchild⟩ := hpart
        rw [assign_of_child_some hchild, read_of_child_ok (child_setChild hchild hslot _),
          read_of_child_ok (child_of_slot hchild hslot)]
        exact ih hdiverge part
      · -- Without a part there the assignment fails and changes nothing.
        obtain ⟨e, hassign⟩ :=
          assign_eq_self_of_child (not_exists.mp hpart) hdiverge.ne_nil_left new
        rw [hassign]
    · -- The first steps select different parts.
      obtain ⟨outcome, part?, hassign⟩ := exists_assign_cons a as new (value.child a)
      rw [hassign value rfl]
      exact read_congr (child_putChild_of_ne hslot value part?) bs

/-- Two assignments by steps that part ways have the outcomes that they have alone, and both orders
end in the same value. -/
theorem assign_comm (h : Diverge as bs) (value x y : Value) :
    ∃ last, (value.assign as x).2.assign bs y = ((value.assign bs y).1, last) ∧
      (value.assign bs y).2.assign as x = ((value.assign as x).1, last) := by
  induction as generalizing value bs with
  | nil => exact absurd h (Diverge.not_nil_left bs)
  | cons a as ih =>
    obtain ⟨b, bs, rfl⟩ := List.exists_cons_of_ne_nil h.symm.ne_nil_left
    by_cases hslot : a.slot = b.slot
    · -- The first step is the same, so both assignments go on in one part.
      have hdiverge : Diverge as bs := (Diverge.cons_iff.mp h).resolve_left (absurd hslot)
      by_cases hpart : ∃ part, value.child a = .ok (some part)
      · obtain ⟨part, ha⟩ := hpart
        have hb := child_of_slot ha hslot
        obtain ⟨last, hlast, hlast'⟩ := ih hdiverge part
        refine ⟨value.setChild b last, ?_, ?_⟩
        · rw [assign_of_child_some ha, assign_of_child_some hb,
            assign_of_child_some (child_setChild ha hslot _), hlast, setChild_setChild ha hslot]
        · rw [assign_of_child_some ha, assign_of_child_some hb,
            assign_of_child_some (child_setChild hb hslot.symm _), hlast',
            setChild_setChild hb hslot.symm, setChild_of_slot hslot]
      · -- Without a part there both of them fail and change nothing.
        have hpart' : ∀ part, value.child b ≠ .ok (some part) :=
          fun part hb => hpart ⟨part, child_of_slot hb hslot.symm⟩
        obtain ⟨e, ha⟩ := assign_eq_self_of_child (not_exists.mp hpart) hdiverge.ne_nil_left x
        obtain ⟨e', hb⟩ := assign_eq_self_of_child hpart' hdiverge.symm.ne_nil_left y
        exact ⟨value, by rw [ha, hb], by rw [hb, ha]⟩
    · -- The first steps select different parts, which can be put in in either order.
      obtain ⟨outcome, x?, ha⟩ := exists_assign_cons a as x (value.child a)
      obtain ⟨outcome', y?, hb⟩ := exists_assign_cons b bs y (value.child b)
      refine ⟨(value.putChild a x?).putChild b y?, ?_, ?_⟩
      · rw [ha value rfl, hb value rfl, hb _ (child_putChild_of_ne hslot value x?)]
      · rw [ha value rfl, hb value rfl, ha _ (child_putChild_of_ne (Ne.symm hslot) value y?),
          putChild_comm hslot]

end Value

/-! ## Layer D: scopes -/

namespace Scope

theorem get?_set_of_ne {name other : String} (h : other ≠ name) (scope : Scope) (value : Value) :
    (scope.set name value).get? other = scope.get? other :=
  Dictionary.get?_insert_of_ne h value scope.entries

theorem set_comm {name other : String} (h : name ≠ other) (scope : Scope) (x y : Value) :
    (scope.set name x).set other y = (scope.set other y).set name x :=
  congrArg Scope.mk (Dictionary.insert_comm h.symm y x scope.entries)

/-- The scope with another value of a variable, if there is one to be given to it. -/
def put (scope : Scope) (name : String) : Option Value → Scope
  | none => scope
  | some value => scope.set name value

theorem get?_put_of_ne {name other : String} (h : other ≠ name) (scope : Scope)
    (value? : Option Value) : (scope.put name value?).get? other = scope.get? other := by
  cases value? with
  | none => rfl
  | some value => exact get?_set_of_ne h scope value

/-- Values can be given to different variables in either order. -/
theorem put_comm {name other : String} (h : name ≠ other) (scope : Scope) (x? y? : Option Value) :
    (scope.put name x?).put other y? = (scope.put other y?).put name x? := by
  cases x? with
  | none => rfl
  | some x =>
    cases y? with
    | none => rfl
    | some y => exact set_comm h scope x y

end Scope

/-- Two paths start at different variables, or at some step that both of them have they select
differently. -/
def Path.Disjoint (p q : Path) : Prop := p.root ≠ q.root ∨ Diverge p.accessors q.accessors

namespace Path

variable {p q : Path} {scope : Scope}

theorem Disjoint.symm (h : p.Disjoint q) : q.Disjoint p :=
  h.imp Ne.symm Diverge.symm

/-- The value of its variable decides an assignment, and it is all that changes. -/
theorem exists_assign (p : Path) (new : Value) (root? : Option Value) :
    ∃ outcome value?, ∀ scope : Scope, scope.get? p.root = root? →
      p.assign new scope = (outcome, scope.put p.root value?) := by
  obtain ⟨root, accessors⟩ := p
  cases accessors with
  | nil => exact ⟨.ok (), some new, fun scope _ => assign_variable root new scope⟩
  | cons a accessors =>
    cases root? with
    | none =>
      exact ⟨.error (.undefinedVariable root), none,
        fun scope h => assign_of_undefined h a accessors new⟩
    | some value =>
      exact ⟨(value.assign (a :: accessors) new).1, some (value.assign (a :: accessors) new).2,
        fun scope h => assign_of_defined h a accessors new⟩

theorem assign_eq_self_of_undefined (h : scope.get? p.root = none) (hne : p.accessors ≠ [])
    (new : Value) : p.assign new scope = (.error (.undefinedVariable p.root), scope) := by
  obtain ⟨root, accessors⟩ := p
  obtain ⟨a, accessors, rfl⟩ := List.exists_cons_of_ne_nil hne
  exact assign_of_undefined h a accessors new

/-- An assignment is not seen from a disjoint path. -/
theorem read_assign_of_disjoint (h : p.Disjoint q) (scope : Scope) (new : Value) :
    q.read (p.assign new scope).2 = q.read scope := by
  by_cases hroot : p.root = q.root
  · -- The same variable: the steps part ways in its value.
    have hdiverge := h.resolve_left (absurd hroot)
    obtain ⟨root, as⟩ := p
    obtain ⟨root', bs⟩ := q
    obtain rfl : root = root' := hroot
    cases hvalue : scope.get? root with
    | none => rw [assign_eq_self_of_undefined (p := ⟨root, as⟩) hvalue hdiverge.ne_nil_left]
    | some value =>
      rw [assign_of_present hvalue, read_of_defined hvalue,
        read_of_defined (scope.get?_set_self root _)]
      exact Value.read_assign_of_diverge hdiverge value new
  · -- Different variables: only the other one is given a value.
    obtain ⟨outcome, value?, hassign⟩ := exists_assign p new (scope.get? p.root)
    rw [hassign scope rfl, read, read, Scope.get?_put_of_ne (Ne.symm hroot)]

/-- Assignments to disjoint paths have the outcomes that they have alone, and both orders end in the
same scope. -/
theorem assign_comm (h : p.Disjoint q) (scope : Scope) (x y : Value) :
    ∃ last, q.assign y (p.assign x scope).2 = ((q.assign y scope).1, last) ∧
      p.assign x (q.assign y scope).2 = ((p.assign x scope).1, last) := by
  by_cases hroot : p.root = q.root
  · -- The same variable: the steps part ways in its value, or it is not defined.
    have hdiverge := h.resolve_left (absurd hroot)
    obtain ⟨root, as⟩ := p
    obtain ⟨root', bs⟩ := q
    obtain rfl : root = root' := hroot
    cases hvalue : scope.get? root with
    | none =>
      have hp := assign_eq_self_of_undefined (p := ⟨root, as⟩) hvalue hdiverge.ne_nil_left x
      have hq := assign_eq_self_of_undefined (p := ⟨root, bs⟩) hvalue hdiverge.symm.ne_nil_left y
      exact ⟨scope, by rw [hp, hq], by rw [hq, hp]⟩
    | some value =>
      obtain ⟨last, hlast, hlast'⟩ := Value.assign_comm hdiverge value x y
      refine ⟨scope.set root last, ?_, ?_⟩
      · rw [assign_of_present hvalue, assign_of_present hvalue,
          assign_of_present (scope.get?_set_self root _), hlast, Scope.set_set]
      · rw [assign_of_present hvalue, assign_of_present hvalue,
          assign_of_present (scope.get?_set_self root _), hlast', Scope.set_set]
  · -- Different variables: each assignment gives a value to its own one.
    obtain ⟨outcome, x?, hp⟩ := exists_assign p x (scope.get? p.root)
    obtain ⟨outcome', y?, hq⟩ := exists_assign q y (scope.get? q.root)
    refine ⟨(scope.put p.root x?).put q.root y?, ?_, ?_⟩
    · rw [hp scope rfl, hq scope rfl, hq _ (Scope.get?_put_of_ne (Ne.symm hroot) scope x?)]
    · rw [hp scope rfl, hq scope rfl, hp _ (Scope.get?_put_of_ne hroot scope y?),
        Scope.put_comm hroot]

end Path

/-! ## Layer E: expressions -/

namespace Node

mutual

/-- The paths that an expression reads. -/
def paths : Node → List Path
  | literal _ => []
  | path p => [p]
  | list items => pathsOfItems items

/-- The paths that the items of a list read. -/
def pathsOfItems : List Node → List Path
  | [] => []
  | item :: items => item.paths ++ pathsOfItems items

end

mutual

/-- What its paths read decides what an expression evaluates to. -/
theorem evaluate_congr {scope scope' : Scope} (node : Node)
    (h : ∀ p ∈ node.paths, p.read scope = p.read scope') :
    node.evaluate scope = node.evaluate scope' := by
  match node with
  | literal value => rfl
  -- A path is the only thing that looks at the scope.
  | path p => rw [evaluate, evaluate, h p (by simp [paths])]
  | list items => rw [evaluate, evaluate, evaluateItems_congr items h]

/-- The same of the items of a list. -/
theorem evaluateItems_congr {scope scope' : Scope} (items : List Node)
    (h : ∀ p ∈ pathsOfItems items, p.read scope = p.read scope') :
    evaluateItems scope items = evaluateItems scope' items := by
  match items with
  | [] => rfl
  | item :: items =>
    have hitem := evaluate_congr item fun p hp => h p (List.mem_append_left _ hp)
    have hitems := evaluateItems_congr items fun p hp => h p (List.mem_append_right _ hp)
    rw [evaluateItems, evaluateItems, hitem, hitems]

end

end Node

open Evaluable (value assign)

/-- **Assignments to disjoint paths are independent.**  An assignment is not seen by an expression
that reads disjoint paths only, neither in its value nor in its error.  Two assignments to disjoint
paths have the same outcomes in either order, and both orders end in the same scope. -/
theorem assignments_independent (source : String) (p : Path) (x : Value) (scope : Scope) :
    (∀ (e : Expression) (scope' : Scope), (∀ q ∈ e.node.paths, p.Disjoint q) →
      assign (⟨source, .path p⟩ : Expression) x scope = (.ok (), scope') →
      value e scope' = value e scope) ∧
    ∀ (source' : String) (q : Path) (y : Value), p.Disjoint q →
      ∃ outcome outcome' middle middle' last,
        assign (⟨source, .path p⟩ : Expression) x scope = (outcome, middle) ∧
        assign (⟨source', .path q⟩ : Expression) y middle = (outcome', last) ∧
        assign (⟨source', .path q⟩ : Expression) y scope = (outcome', middle') ∧
        assign (⟨source, .path p⟩ : Expression) x middle' = (outcome, last) := by
  constructor
  · intro e scope' hdisjoint h
    obtain rfl : (p.assign x scope).2 = scope' := congrArg Prod.snd h
    exact e.node.evaluate_congr fun q hq => Path.read_assign_of_disjoint (hdisjoint q hq) scope x
  · intro source' q y hdisjoint
    obtain ⟨last, hq, hp⟩ := Path.assign_comm hdisjoint scope x y
    refine ⟨_, _, _, _, last, Expression.assign_path source p x scope, ?_,
      Expression.assign_path source' q y scope, ?_⟩
    · rw [Expression.assign_path, hq]
    · rw [Expression.assign_path, hp]

/-- Two entries of one map: the first of them is created, the second is a list that is too short. -/
theorem assignments_independent_entries :
    let p : Path := ⟨"a", [.property "k"]⟩
    let q : Path := ⟨"a", [.key "l", .index 1]⟩
    let pair : Expression := ⟨"(a['l'][1], 0)", .list [.path q, .literal .nil]⟩
    let scope : Scope := ⟨[("a", .map [("l", .list [.nil])])]⟩
    let scope' : Scope := ⟨[("a", .map [("k", .bool true), ("l", .list [.nil])])]⟩
    p.Disjoint q ∧ (∀ r ∈ pair.node.paths, p.Disjoint r) ∧
      assign (⟨"a.k", .path p⟩ : Expression) (.bool true) scope = (.ok (), scope') ∧
      value pair scope' = value pair scope ∧
      ∃ outcome outcome' middle middle' last,
        assign (⟨"a.k", .path p⟩ : Expression) (.bool true) scope = (outcome, middle) ∧
        assign (⟨"a['l'][1]", .path q⟩ : Expression) .nil middle = (outcome', last) ∧
        assign (⟨"a['l'][1]", .path q⟩ : Expression) .nil scope = (outcome', middle') ∧
        assign (⟨"a.k", .path p⟩ : Expression) (.bool true) middle' = (outcome, last) := by
  intro p q pair scope scope'
  have hdisjoint : p.Disjoint q := .inr ⟨0, .property "k", .key "l", rfl, rfl, by decide⟩
  have hpair : ∀ r ∈ pair.node.paths, p.Disjoint r := by
    intro r hr
    obtain rfl : r = q := by simpa [pair, Node.paths, Node.pathsOfItems] using hr
    exact hdisjoint
  have hassign : assign (⟨"a.k", .path p⟩ : Expression) (.bool true) scope = (.ok (), scope') := by
    cbv
  obtain ⟨hframe, hcomm⟩ := assignments_independent "a.k" p (.bool true) scope
  exact ⟨hdisjoint, hpair, hassign, hframe pair scope' hpair hassign,
    hcomm "a['l'][1]" q .nil hdisjoint⟩

end Interpolation
