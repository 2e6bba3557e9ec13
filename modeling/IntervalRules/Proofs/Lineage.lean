import IntervalRules.Session
import Mathlib.Data.List.Basic
import Mathlib.Data.List.Induction

/-!
Where the rules of a session's validators come from. Each validator has been through some of the
session's actions, a copy through those of its original, and its rules are what these actions
added when they were taken (`holds_lines`). What is registered or added later, on it or on a copy,
is no part of that. Rules of one kind are the same built-in rule, or come from one registration.
-/

namespace IntervalRules.Session

/-! ## Lines of actions -/

/-- The numbers of the actions that the current and the saved validator have been through. -/
structure Lines where
  current : List Nat
  saved : List Nat

/-- What is saved has been through all that the current validator has, and from then on the two go
their own ways. -/
def Lines.next (l : Lines) (number : Nat) : Action → Lines
  | .save => ⟨l.current, l.current⟩
  | .swap => ⟨l.saved, l.current⟩
  | _ => ⟨l.current ++ [number], l.saved⟩

def lines (actions : List Action) : Lines :=
  actions.zipIdx.foldl (fun l numbered => l.next numbered.2 numbered.1) ⟨[], []⟩

/-- What action number `i` has given, which may depend on the session before it. -/
def given {α : Type} (gives : Session → Action → Option α) (actions : List Action) (i : Nat) :
    Option α :=
  actions[i]?.bind (gives (empty.runAll (actions.take i)))

/-- The rule that an action adds to the current validator. An action that fails adds none. -/
def addition? (s : Session) : Action → Option Spec
  | .addRule text message =>
    (s.current.parseRule text).toOption.map fun spec => { spec with message := message }
  | .pushBuiltIn text => (Spec.parse text).toOption
  | .push rule params message => some ⟨.builtIn rule, params, message⟩
  | _ => none

/-- The rule that action number `i` has added. -/
def added? (actions : List Action) (i : Nat) : Option Spec := given addition? actions i

/-- The rule that an action registers. -/
def registration? (s : Session) : Action → Option CustomRule
  | .register name check message =>
    (s.current.register s.registrations name check message).registered.head?
  | _ => none

def Action.registersName (name : String) : Action → Bool
  | .register other _ _ => other == name
  | _ => false

def Action.isRegistration : Action → Bool
  | .register _ _ _ => true
  | _ => false

/-- The last action on a line that registers a name. -/
def lastRegistered? (actions : List Action) (line : List Nat) (name : String) : Option Nat :=
  line.reverse.find? fun k => actions[k]?.any (Action.registersName name)

/-- The registration that the rule of action number `i` comes from: the last one of its name that
the validator had been through. -/
def origin? (actions : List Action) (i : Nat) : Option Nat :=
  match actions[i]? with
  | some (.addRule text _) =>
    lastRegistered? actions (lines (actions.take i)).current (Spec.parts text).1
  | _ => none

theorem runAll_concat (s : Session) (actions : List Action) (a : Action) :
    s.runAll (actions ++ [a]) = ((s.runAll actions).run a).1 := by
  rw [runAll, List.foldl_append]
  rfl

theorem lines_concat (actions : List Action) (a : Action) :
    lines (actions ++ [a]) = (lines actions).next actions.length a := by
  rw [lines, List.zipIdx_append, List.foldl_append, Nat.zero_add]
  rfl

section

variable {α : Type} {gives : Session → Action → Option α} {actions : List Action}

/-- What an action has given does not depend on later ones. -/
theorem given_append {i : Nat} (hi : i < actions.length) (more : List Action) :
    given gives (actions ++ more) i = given gives actions i := by
  rw [given, given, List.getElem?_append_left hi, List.take_append_of_le_length (Nat.le_of_lt hi)]

theorem given_length (a : Action) :
    given gives (actions ++ [a]) actions.length = gives (empty.runAll actions) a := by
  simp [given]

theorem filterMap_given_singleton (i : Nat) :
    [i].filterMap (given gives actions) = (given gives actions i).toList := rfl

theorem filterMap_given_append {line : List Nat} (hline : ∀ i ∈ line, i < actions.length)
    (more : List Action) :
    line.filterMap (given gives (actions ++ more)) = line.filterMap (given gives actions) := by
  refine List.filterMap_congr fun i hi => ?_
  exact given_append (hline i hi) more

end

/-! ## One action -/

/-- Neither saving nor swapping. -/
def Action.stays : Action → Bool
  | .save => false
  | .swap => false
  | _ => true

theorem Lines.next_of_stays {a : Action} (ha : a.stays = true) (l : Lines) (number : Nat) :
    l.next number a = ⟨l.current ++ [number], l.saved⟩ := by
  cases a with
  | save => cases ha
  | swap => cases ha
  | _ => rfl

/-- An action appends what it adds to the rules of the current validator and puts what it
registers in front of the registrations. -/
theorem run_of_stays {a : Action} (ha : a.stays = true) (s : Session) :
    (s.run a).1.saved = s.saved ∧
      (s.run a).1.current.rules = s.current.rules ++ (s.addition? a).toList ∧
      (s.run a).1.current.registered = (s.registration? a).toList ++ s.current.registered := by
  have hsame (v : Validator) : v.rules = v.rules ++ [] := (List.append_nil _).symm
  cases a with
  | addRule text message =>
    rw [run, Validator.addRule, addition?]
    cases s.current.parseRule text with
    | error e => exact ⟨rfl, hsame s.current, rfl⟩
    | ok spec => exact ⟨rfl, rfl, rfl⟩
  | pushBuiltIn text =>
    rw [run, addition?]
    cases Spec.parse text with
    | error e => exact ⟨rfl, hsame s.current, rfl⟩
    | ok spec => exact ⟨rfl, rfl, rfl⟩
  | push rule params message => exact ⟨rfl, rfl, rfl⟩
  | register name check message => exact ⟨rfl, hsame s.current, rfl⟩
  | parseRule text => exact ⟨rfl, hsame s.current, rfl⟩
  | check value => exact ⟨rfl, hsame s.current, rfl⟩
  | save => cases ha
  | swap => cases ha

/-- An action that fails, reads a rule or checks a value changes nothing. -/
theorem run_unchanged {s : Session} {a : Action}
    (h : (∃ e, (s.run a).2 = .error e) ∨ (∃ text, a = .parseRule text) ∨
      ∃ value, a = .check value) :
    (s.run a).1 = s := by
  rcases h with ⟨e, he⟩ | ⟨text, rfl⟩ | ⟨value, rfl⟩
  · cases a with
    | addRule text message =>
      rw [run] at he ⊢
      cases hadd : s.current.addRule text message with
      | error e => rfl
      | ok v =>
        rw [hadd] at he
        cases he
    | pushBuiltIn text =>
      rw [run] at he ⊢
      cases hparse : Spec.parse text with
      | error e => rfl
      | ok spec =>
        rw [hparse] at he
        cases he
    | parseRule text => rfl
    | check value => rfl
    | push rule params message => cases he
    | register name check message => cases he
    | save => cases he
    | swap => cases he
  · rfl
  · rfl

/-! ## A session -/

/-- The rules and the registrations of a validator are those that the actions of a line have
given. -/
structure Holds (actions : List Action) (line : List Nat) (v : Validator) : Prop where
  past : ∀ i ∈ line, i < actions.length
  rules : v.rules = line.filterMap (added? actions)
  registered : v.registered = (line.filterMap (given registration? actions)).reverse

theorem holds_empty (actions : List Action) : Holds actions [] .empty := ⟨nofun, rfl, rfl⟩

namespace Holds

variable {actions : List Action} {line : List Nat} {v : Validator}

theorem append (h : Holds actions line v) (more : List Action) :
    Holds (actions ++ more) line v := by
  refine ⟨fun i hi => ?_, ?_, ?_⟩
  · rw [List.length_append]
    exact Nat.lt_add_right _ (h.past i hi)
  · rw [h.rules]
    exact (filterMap_given_append h.past more).symm
  · rw [h.registered, filterMap_given_append h.past more]

/-- The current validator after one more action. -/
theorem concat (h : Holds actions line (empty.runAll actions).current) {a : Action}
    (ha : a.stays = true) :
    Holds (actions ++ [a]) (line ++ [actions.length])
      ((empty.runAll actions).run a).1.current := by
  obtain ⟨-, hrules, hregistered⟩ := run_of_stays ha (empty.runAll actions)
  have hlater := h.append [a]
  refine ⟨?_, ?_, ?_⟩
  · intro i hi
    rcases List.mem_append.1 hi with hi | hi
    · exact hlater.past i hi
    · rw [List.mem_singleton.1 hi, List.length_append]
      exact Nat.lt_succ_self _
  · have hsingle : [actions.length].filterMap (added? (actions ++ [a])) = _ :=
      filterMap_given_singleton actions.length
    rw [hrules, hlater.rules, List.filterMap_append, hsingle, given_length]
  · rw [hregistered, hlater.registered, List.filterMap_append, List.reverse_append,
      filterMap_given_singleton, given_length]
    cases registration? (empty.runAll actions) a <;> rfl

/-- What a validator finds under a name is the last registration of the name on its line. -/
theorem find?_cases (h : Holds actions line v) (name : String) :
    (lastRegistered? actions line name = none ∧ v.find? name = none) ∨
      ∃ k c, lastRegistered? actions line name = some k ∧
        given registration? actions k = some c ∧ v.find? name = some c := by
  have hname (k : Nat) : (given registration? actions k).any (·.name == name) =
      actions[k]?.any (Action.registersName name) := by
    rw [given]
    cases actions[k]? with
    | none => rfl
    | some a => cases a <;> rfl
  have hfind : v.find? name =
      (lastRegistered? actions line name).bind (given registration? actions) := by
    rw [Validator.find?, h.registered, ← List.filterMap_reverse, List.find?_filterMap]
    simp only [hname, lastRegistered?]
  cases hlast : lastRegistered? actions line name with
  | none =>
    rw [hlast] at hfind
    exact .inl ⟨rfl, hfind⟩
  | some k =>
    rw [hlast] at hfind
    have hany := List.find?_some hlast
    rw [← hname] at hany
    obtain ⟨c, hc, -⟩ := (Option.any_eq_true _ _).1 hany
    exact .inr ⟨k, c, rfl, hc, hfind.trans hc⟩

end Holds

/-- The validators of a session have what the actions of their lines have given. -/
theorem holds_lines (actions : List Action) :
    Holds actions (lines actions).current (empty.runAll actions).current ∧
      Holds actions (lines actions).saved ((empty.runAll actions).saved.getD .empty) := by
  induction actions using List.reverseRecOn with
  | nil => exact ⟨holds_empty [], holds_empty []⟩
  | append_singleton actions a ih =>
    obtain ⟨hcurrent, hsaved⟩ := ih
    rw [runAll_concat, lines_concat]
    cases ha : a.stays with
    | true =>
      rw [Lines.next_of_stays ha, (run_of_stays ha _).1]
      exact ⟨hcurrent.concat ha, hsaved.append [a]⟩
    | false =>
      cases a with
      | save => exact ⟨hcurrent.append _, hcurrent.append _⟩
      | swap => exact ⟨hsaved.append _, hcurrent.append _⟩
      | _ => cases ha

/-- The current validator before action number `i`, in a session that goes on. -/
theorem holds_before (actions : List Action) (i : Nat) :
    Holds actions (lines (actions.take i)).current (empty.runAll (actions.take i)).current := by
  have h := (holds_lines (actions.take i)).1.append (actions.drop i)
  rwa [List.take_append_drop] at h

/-- The two validators of a session. -/
def validators (s : Session) : List Validator := [s.current, s.saved.getD .empty]

theorem exists_prefix_run (s : Session) (a : Action) :
    ∀ v ∈ (s.run a).1.validators, ∃ u ∈ s.validators, u.rules <+: v.rules := by
  have hcurrent : s.current ∈ s.validators := List.mem_cons_self
  have hsaved : s.saved.getD .empty ∈ s.validators := List.mem_cons_of_mem _ List.mem_cons_self
  intro v hv
  cases ha : a.stays with
  | true =>
    obtain ⟨hkept, hrules, -⟩ := run_of_stays ha s
    simp only [validators, hkept, List.mem_cons, List.not_mem_nil, or_false] at hv
    rcases hv with rfl | rfl
    · exact ⟨s.current, hcurrent, hrules ▸ List.prefix_append _ _⟩
    · exact ⟨_, hsaved, List.prefix_rfl⟩
  | false =>
    -- saving and swapping leave no validator that was not there before
    refine ⟨v, ?_, List.prefix_rfl⟩
    cases a with
    | save =>
      have hv : v ∈ [s.current, s.current] := hv
      simp only [List.mem_cons, List.not_mem_nil, or_false, or_self] at hv
      exact hv ▸ hcurrent
    | swap =>
      have hv : v ∈ [s.saved.getD .empty, s.current] := hv
      simp only [List.mem_cons, List.not_mem_nil, or_false] at hv
      rcases hv with rfl | rfl
      · exact hsaved
      · exact hcurrent
    | _ => cases ha

/-- Each validator goes on from one of the former two, whose rules stay in front of its own. -/
theorem exists_prefix_runAll (s : Session) (more : List Action) :
    ∀ v ∈ (s.runAll more).validators, ∃ u ∈ s.validators, u.rules <+: v.rules := by
  induction more using List.reverseRecOn with
  | nil => exact fun v hv => ⟨v, hv, List.prefix_rfl⟩
  | append_singleton more a ih =>
    rw [runAll_concat]
    intro v hv
    obtain ⟨u, hu, huv⟩ := exists_prefix_run _ a v hv
    obtain ⟨t, ht, htu⟩ := ih u hu
    exact ⟨t, ht, htu.trans huv⟩

/-! ## Kinds -/

/-- Registrations are numbered through the session. -/
theorem registrations_runAll (actions : List Action) :
    (empty.runAll actions).registrations = actions.countP Action.isRegistration := by
  induction actions using List.reverseRecOn with
  | nil => rfl
  | append_singleton actions a ih =>
    rw [runAll_concat, List.countP_append, ← ih]
    cases a with
    | addRule text message =>
      rw [run]
      cases Validator.addRule _ text message <;> rfl
    | pushBuiltIn text =>
      rw [run]
      cases Spec.parse text <;> rfl
    | _ => rfl

theorem eq_register_of_given {actions : List Action} {k : Nat} {c : CustomRule}
    (h : given registration? actions k = some c) :
    (∃ message, actions[k]? = some (.register c.name c.check message)) ∧
      c.registration = (actions.take k).countP Action.isRegistration := by
  obtain ⟨a, ha, hc⟩ := Option.bind_eq_some_iff.1 h
  cases a with
  | register name check message =>
    cases hc
    exact ⟨⟨message, ha⟩, registrations_runAll _⟩
  | _ => cases hc

theorem countP_take_lt {actions : List Action} {i k : Nat} {a : Action} (ha : actions[i]? = some a)
    (hregistration : a.isRegistration = true) (hik : i < k) :
    (actions.take i).countP Action.isRegistration <
      (actions.take k).countP Action.isRegistration := by
  have hstep : (actions.take (i + 1)).countP Action.isRegistration =
      (actions.take i).countP Action.isRegistration + 1 := by
    simp [List.take_add_one, ha, hregistration]
  have hle : i + 1 ≤ k := hik
  have hprefix : actions.take (i + 1) <+: actions.take k := List.take_prefix_take_left hle
  have hmono : (actions.take (i + 1)).countP Action.isRegistration ≤
      (actions.take k).countP Action.isRegistration := hprefix.sublist.countP_le
  omega

/-- Two registrations do not share a number. -/
theorem eq_of_registration_eq {actions : List Action} {i k : Nat} {c d : CustomRule}
    (hc : given registration? actions i = some c) (hd : given registration? actions k = some d)
    (h : c.registration = d.registration) : i = k := by
  obtain ⟨⟨m, hi⟩, hcnumber⟩ := eq_register_of_given hc
  obtain ⟨⟨m', hk⟩, hdnumber⟩ := eq_register_of_given hd
  rcases Nat.lt_trichotomy i k with hlt | heq | hlt
  · have := countP_take_lt hi rfl hlt
    omega
  · exact heq
  · have := countP_take_lt hk rfl hlt
    omega

theorem builtIn_of_parse {text : String} {spec : Spec} (h : Spec.parse text = .ok spec) :
    ∃ r, spec.rule = .builtIn r := by
  unfold Spec.parse at h
  split at h
  · rename_i r _
    cases h
    exact ⟨r, rfl⟩
  · cases h

/-- A rule that was added is built in, or comes from the registration that is its origin. -/
theorem kind_of_added {actions : List Action} {i : Nat} {p : Spec}
    (h : added? actions i = some p) :
    (origin? actions i = none ∧ ∃ r, p.rule = .builtIn r) ∨
      ∃ k c, origin? actions i = some k ∧ given registration? actions k = some c ∧
        p.rule = .custom c := by
  obtain ⟨a, ha, hp⟩ := Option.bind_eq_some_iff.1 h
  cases a with
  | addRule text message =>
    obtain ⟨spec, hspec, rfl⟩ := Option.map_eq_some_iff.1 hp
    simp only [origin?, ha]
    rw [Validator.parseRule] at hspec
    rcases (holds_before actions i).find?_cases (Spec.parts text).1 with
      ⟨hlast, hfind⟩ | ⟨k, c, hlast, hc, hfind⟩
    · rw [hfind] at hspec
      dsimp only at hspec
      cases hparse : Spec.parse text with
      | error e =>
        rw [hparse] at hspec
        cases hspec
      | ok read =>
        rw [hparse] at hspec
        cases hspec
        exact .inl ⟨hlast, builtIn_of_parse hparse⟩
    · rw [hfind] at hspec
      cases hspec
      exact .inr ⟨k, c, hlast, hc, rfl⟩
  | pushBuiltIn text =>
    rw [addition?] at hp
    cases hparse : Spec.parse text with
    | error e =>
      rw [hparse] at hp
      cases hp
    | ok spec =>
      rw [hparse] at hp
      cases hp
      exact .inl ⟨by rw [origin?, ha], builtIn_of_parse hparse⟩
  | push rule params message =>
    cases hp
    exact .inl ⟨by rw [origin?, ha], rule, rfl⟩
  | _ => cases hp

/-- Two rules are of one kind if they are the same built-in rule or come from one registration. -/
theorem same_iff {actions : List Action} {i j : Nat} {p q : Spec}
    (hp : added? actions i = some p) (hq : added? actions j = some q) :
    p.rule.same q.rule = true ↔
      (∃ r, p.rule = .builtIn r ∧ q.rule = .builtIn r) ∨
        ∃ k, origin? actions i = some k ∧ origin? actions j = some k := by
  rcases kind_of_added hp with ⟨hi, r, hr⟩ | ⟨k, c, hi, hc, hr⟩
  · rcases kind_of_added hq with ⟨hj, r', hr'⟩ | ⟨l, d, hj, hd, hr'⟩
    · simp [hr, hr', hi, RuleKind.same, eq_comm]
    · simp [hr, hr', hi, RuleKind.same]
  · rcases kind_of_added hq with ⟨hj, r', hr'⟩ | ⟨l, d, hj, hd, hr'⟩
    · simp [hr, hr', hj, RuleKind.same]
    · have hkinds : (RuleKind.custom c).same (.custom d) = true ↔ k = l := by
        rw [RuleKind.same, Bool.and_eq_true, beq_iff_eq, beq_iff_eq]
        constructor
        · rintro ⟨-, hnumber⟩
          exact eq_of_registration_eq hc hd hnumber
        · rintro rfl
          obtain rfl := Option.some.inj (hc.symm.trans hd)
          exact ⟨rfl, rfl⟩
      rw [hr, hr', hkinds, hi, hj]
      simp [eq_comm]

/-- The rules of a session's validators are those that the actions of their lines added, each as it
was read at that moment. Further actions leave the rules that are there in front of what they add,
and an action that fails, reads a rule or checks a value changes nothing at all. A rule from a
registration has the check that was registered then, and two rules are of one kind exactly if they
are the same built-in rule or come from the very same registration. -/
theorem rules_frozen (actions : List Action) :
    ((empty.runAll actions).current.rules = (lines actions).current.filterMap (added? actions) ∧
      ((empty.runAll actions).saved.getD .empty).rules =
        (lines actions).saved.filterMap (added? actions)) ∧
    (∀ more, ∀ v ∈ (empty.runAll (actions ++ more)).validators,
      ∃ u ∈ (empty.runAll actions).validators, u.rules <+: v.rules) ∧
    (∀ a, (∃ e, ((empty.runAll actions).run a).2 = .error e) ∨ (∃ text, a = .parseRule text) ∨
        (∃ value, a = .check value) →
      ((empty.runAll actions).run a).1 = empty.runAll actions) ∧
    (∀ i k p, added? actions i = some p → origin? actions i = some k →
      ∃ c message, p.rule = .custom c ∧ actions[k]? = some (.register c.name c.check message)) ∧
    ∀ i j p q, added? actions i = some p → added? actions j = some q →
      (p.rule.same q.rule = true ↔
        (∃ r, p.rule = .builtIn r ∧ q.rule = .builtIn r) ∨
          ∃ k, origin? actions i = some k ∧ origin? actions j = some k) := by
  obtain ⟨hcurrent, hsaved⟩ := holds_lines actions
  refine ⟨⟨hcurrent.rules, hsaved.rules⟩, ?_, fun a => run_unchanged, ?_,
    fun i j p q => same_iff⟩
  · intro more
    rw [runAll, List.foldl_append]
    exact exists_prefix_runAll (empty.runAll actions) more
  · intro i k p hp hk
    rcases kind_of_added hp with ⟨hnone, -⟩ | ⟨l, c, hl, hc, hrule⟩
    · rw [hk] at hnone
      cases hnone
    · obtain rfl := Option.some.inj (hk.symm.trans hl)
      obtain ⟨⟨message, hregister⟩, -⟩ := eq_register_of_given hc
      exact ⟨c, message, hrule, hregister⟩

/-- A copy keeps the first rule and gets no second one; the name registered anew, with the same
check, is another kind. -/
theorem rules_frozen_registered_anew :
    let even : CustomCheck := fun value _ => value.length % 2 == 0
    let s := empty.runAll [.register "even" even none, .addRule "even" none, .save,
      .register "even" even none, .addRule "even" (some "odd")]
    ∃ p q, s.current.rules = [p, q] ∧ (s.saved.getD .empty).rules = [p] ∧
      p.rule.same q.rule = false := by
  intro even s
  obtain ⟨⟨hcurrent, hsaved⟩, -, -, -, hsame⟩ := rules_frozen [.register "even" even none,
    .addRule "even" none, .save, .register "even" even none, .addRule "even" (some "odd")]
  refine ⟨_, _, hcurrent.trans rfl, hsaved.trans rfl, ?_⟩
  rw [Bool.eq_false_iff, ne_eq, hsame 1 4 _ _ rfl rfl]
  rintro (⟨r, hr, -⟩ | ⟨k, hfirst, hsecond⟩)
  · cases hr
  · exact absurd (hfirst.trans hsecond.symm) (by decide)

end IntervalRules.Session
