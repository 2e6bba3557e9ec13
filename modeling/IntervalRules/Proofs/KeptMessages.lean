import IntervalRules.Proofs.Lineage
import IntervalRules.Proofs.WrittenSpecs

/-!
The messages of registered names. A registration without a message keeps the one that its name had,
so the message of a name is carried on from rule to rule. In the end it is the latest one that was
given under the name in all that the validator has been through, as a copy through what its original
had been through, or else the one that the name has by itself (`holds_messages`).
-/

namespace IntervalRules.Session

/-- A registration as it is asked for. -/
structure Registration where
  name : String
  check : CustomCheck
  message : Option String

def Action.asked? : Action → Option Registration
  | .register name test message => some ⟨name, test, message⟩
  | _ => none

/-- The registrations that a validator has been through, on a line of actions. -/
def history (actions : List Action) (line : List Nat) : List Registration :=
  line.filterMap (given (fun _ => Action.asked?) actions)

/-- The registrations of one name. -/
def ofName (name : String) (registrations : List Registration) : List Registration :=
  registrations.filter (·.name == name)

/-- The latest message that was given. -/
def lastMessage? (registrations : List Registration) : Option String :=
  (registrations.filterMap Registration.message).getLast?

/-- What is found under a name of which there were these registrations: the check of the last one,
and a message of the latest one that gave it. -/
def meaning? (name : String) (registrations : List Registration) : Option (CustomCheck × String) :=
  registrations.getLast?.map fun last =>
    (last.check, (lastMessage? registrations).getD (CustomRule.fallbackMessage name))

theorem lastMessage?_concat (registrations : List Registration) (r : Registration) :
    lastMessage? (registrations ++ [r]) = r.message.or (lastMessage? registrations) := by
  rw [lastMessage?, List.filterMap_append]
  cases hmessage : r.message with
  | none => simp [hmessage, lastMessage?]
  | some message => simp [hmessage]

theorem ofName_concat_self (registrations : List Registration) (r : Registration) :
    ofName r.name (registrations ++ [r]) = ofName r.name registrations ++ [r] := by
  simp [ofName]

theorem ofName_concat_of_ne {name : String} {r : Registration} (h : r.name ≠ name)
    (registrations : List Registration) :
    ofName name (registrations ++ [r]) = ofName name registrations := by
  simp [ofName, h]

/-! ## One registration -/

/-- Under every name the validator finds what the registrations of the name come to. -/
def Remembers (registrations : List Registration) (v : Validator) : Prop :=
  ∀ name, (v.find? name).map (fun c => (c.check, c.message)) =
    meaning? name (ofName name registrations)

theorem remembers_empty : Remembers [] .empty := fun _ => rfl

namespace Remembers

variable {registrations : List Registration} {v : Validator}

theorem congr (h : Remembers registrations v) {u : Validator} (hu : u.registered = v.registered) :
    Remembers registrations u := by
  intro name
  rw [Validator.find?, hu]
  exact h name

/-- The message that a name has is the latest one, or the one that it has by itself. -/
theorem kept (h : Remembers registrations v) (name : String) (message : Option String) :
    (message.or ((v.find? name).map CustomRule.message)).getD (CustomRule.fallbackMessage name) =
      (message.or (lastMessage? (ofName name registrations))).getD
        (CustomRule.fallbackMessage name) := by
  have hname := congrArg (Option.map Prod.snd) (h name)
  rw [Option.map_map, meaning?] at hname
  have hkept : (v.find? name).map CustomRule.message = _ := hname
  rw [hkept]
  cases message with
  | some message => rfl
  | none =>
    cases hlast : (ofName name registrations).getLast? with
    | none =>
      rw [List.getLast?_eq_none_iff.1 hlast]
      rfl
    | some last => rfl

theorem register (h : Remembers registrations v) (r : Registration) (number : Nat) :
    Remembers (registrations ++ [r]) (v.register number r.name r.check r.message) := by
  intro name
  by_cases hname : r.name = name
  · subst hname
    have hfind : (v.register number r.name r.check r.message).find? r.name =
        some ⟨r.name, r.check, (r.message.or ((v.find? r.name).map CustomRule.message)).getD
          (CustomRule.fallbackMessage r.name), number⟩ := by
      rw [Validator.find?, Validator.register]
      exact List.find?_cons_of_pos (beq_self_eq_true r.name)
    rw [hfind, h.kept, ofName_concat_self, meaning?, lastMessage?_concat, List.getLast?_concat]
    rfl
  · have hfind : (v.register number r.name r.check r.message).find? name = v.find? name := by
      rw [Validator.find?, Validator.register]
      exact List.find?_cons_of_neg (by simpa using hname)
    rw [hfind, ofName_concat_of_ne hname]
    exact h name

end Remembers

/-! ## A session -/

/-- The validators of a session with the lines of the actions that they have been through. -/
def standing (actions : List Action) : List (Validator × List Nat) :=
  [((empty.runAll actions).current, (lines actions).current),
    ((empty.runAll actions).saved.getD .empty, (lines actions).saved)]

theorem history_append {actions : List Action} {line : List Nat}
    (hline : ∀ i ∈ line, i < actions.length) (more : List Action) :
    history (actions ++ more) line = history actions line :=
  filterMap_given_append hline more

/-- One more action on a line is one more registration, or none. -/
theorem history_concat {actions : List Action} {line : List Nat}
    (hline : ∀ i ∈ line, i < actions.length) (a : Action) :
    history (actions ++ [a]) (line ++ [actions.length]) =
      history actions line ++ a.asked?.toList := by
  rw [history, List.filterMap_append, filterMap_given_singleton, given_length,
    filterMap_given_append hline]
  rfl

theorem remembers_run {s : Session} {registrations : List Registration}
    (h : Remembers registrations s.current) {a : Action} (ha : a.stays = true) :
    Remembers (registrations ++ a.asked?.toList) (s.run a).1.current := by
  cases a with
  | register name check message => exact h.register ⟨name, check, message⟩ s.registrations
  | save => cases ha
  | swap => cases ha
  | _ =>
    rw [show Action.asked? _ = none from rfl, Option.toList_none, List.append_nil]
    exact h.congr (run_of_stays ha s).2.2

/-- The validators of a session find under every name what its registrations come to. -/
theorem holds_messages (actions : List Action) :
    ∀ b ∈ standing actions, Remembers (history actions b.2) b.1 := by
  suffices hboth : Remembers (history actions (lines actions).current)
      (empty.runAll actions).current ∧
      Remembers (history actions (lines actions).saved)
        ((empty.runAll actions).saved.getD .empty) from
    List.forall_mem_cons.2 ⟨hboth.1, List.forall_mem_singleton.2 hboth.2⟩
  induction actions using List.reverseRecOn with
  | nil => exact ⟨remembers_empty, remembers_empty⟩
  | append_singleton actions a ih =>
    obtain ⟨hcurrent, hsaved⟩ := ih
    have hlines := holds_lines actions
    have hcurrent' := hcurrent
    have hsaved' := hsaved
    rw [← history_append hlines.1.past [a]] at hcurrent'
    rw [← history_append hlines.2.past [a]] at hsaved'
    rw [runAll_concat, lines_concat]
    cases ha : a.stays with
    | true =>
      rw [Lines.next_of_stays ha, (run_of_stays ha _).1, history_concat hlines.1.past]
      exact ⟨remembers_run hcurrent ha, hsaved'⟩
    | false =>
      cases a with
      | save => exact ⟨hcurrent', hcurrent'⟩
      | swap => exact ⟨hsaved', hcurrent'⟩
      | _ => cases ha

theorem fallbackMessage_name (r : Rule) :
    CustomRule.fallbackMessage r.name = r.defaultMessage := by
  rw [CustomRule.fallbackMessage, Rule.ofName?_name]
  rfl

theorem fallbackMessage_of_unknown {name : String} (h : ∀ r : Rule, r.name ≠ name) :
    CustomRule.fallbackMessage name = "Please enter a valid value" := by
  have hnone : Rule.ofName? name = none := by
    refine List.find?_eq_none.2 fun r _ => ?_
    simpa using h r
  rw [CustomRule.fallbackMessage, hnone]
  rfl

/-- Of a validator and all the registrations that it or its originals have been through, those of a
name decide what is found under it: a rule with the check of the last one, and with the message of
the latest one that gave a message, be it empty. If none gave one the message is that of the
built-in rule of exactly this name, or a general one if there is no such rule. A text with the name
in front is read with that rule. Validators that have been through the same registrations of a name
find the same check and message under it, whatever else they have been through. -/
theorem message_by_registrations (actions : List Action) :
    (∀ b ∈ standing actions, ∀ name earlier last,
      ofName name (history actions b.2) = earlier ++ [last] →
      ∃ c, b.1.find? name = some c ∧ c.name = name ∧ c.check = last.check ∧
        c.message =
          (lastMessage? (earlier ++ [last])).getD (CustomRule.fallbackMessage name) ∧
        ∀ text, (Spec.parts text).1 = name →
          b.1.parseRule text = .ok ⟨.custom c, (Spec.parts text).2, none⟩) ∧
    (∀ r : Rule, CustomRule.fallbackMessage r.name = r.defaultMessage) ∧
    (∀ name, (∀ r : Rule, r.name ≠ name) →
      CustomRule.fallbackMessage name = "Please enter a valid value") ∧
    ∀ actions', ∀ b ∈ standing actions, ∀ b' ∈ standing actions', ∀ name,
      ofName name (history actions b.2) = ofName name (history actions' b'.2) →
      (b.1.find? name).map (fun c => (c.check, c.message)) =
        (b'.1.find? name).map fun c => (c.check, c.message) := by
  refine ⟨fun b hb name earlier last hlast => ?_, fallbackMessage_name,
    fun _ => fallbackMessage_of_unknown, fun actions' b hb b' hb' name hsame => ?_⟩
  · have hmeaning := holds_messages actions b hb name
    rw [hlast, meaning?, List.getLast?_concat] at hmeaning
    obtain ⟨c, hfind, hc⟩ := Option.map_eq_some_iff.1 hmeaning
    obtain ⟨hcheck, hmessage⟩ := Prod.mk.inj hc
    refine ⟨c, hfind, Validator.name_of_find? hfind, hcheck, hmessage, ?_⟩
    rintro text rfl
    exact Validator.parseRule_of_find? hfind
  · rw [holds_messages actions b hb, holds_messages actions' b' hb', hsame]

/-- The copy that is saved gets an empty message for a name that keeps its built-in one here; the
message of another name does not count. -/
theorem message_by_registrations_of_copy :
    let digit : CustomCheck := fun value _ => value.length == 1
    let even : CustomCheck := fun value _ => value.length % 2 == 0
    let s := empty.runAll [.register "digits" digit none, .save, .swap,
      .register "digits" digit (some ""), .swap, .register "even" even (some "odd"),
      .register "digits" even none]
    (∃ c, s.current.parseRule " digits : 3" = .ok ⟨.custom c, ["3"], none⟩ ∧ c.check = even ∧
      c.message = "Please enter only digits") ∧
    ∃ c, (s.saved.getD .empty).parseRule "digits" = .ok ⟨.custom c, [], none⟩ ∧
      c.check = digit ∧ c.message = "" := by
  intro digit even s
  obtain ⟨hfound, -, -, -⟩ := message_by_registrations [.register "digits" digit none, .save,
    .swap, .register "digits" digit (some ""), .swap, .register "even" even (some "odd"),
    .register "digits" even none]
  have hspaced : Spec.parts " digits : 3" = ("digits", ["3"]) := by decide +kernel
  have hplain : Spec.parts "digits" = ("digits", []) := by decide +kernel
  obtain ⟨c, -, -, hcheck, hmessage, hread⟩ := hfound _ List.mem_cons_self "digits"
    [⟨"digits", digit, none⟩] ⟨"digits", even, none⟩ rfl
  obtain ⟨d, -, -, hcheck', hmessage', hread'⟩ := hfound _
    (List.mem_cons_of_mem _ List.mem_cons_self) "digits" [⟨"digits", digit, none⟩]
    ⟨"digits", digit, some ""⟩ rfl
  refine ⟨⟨c, ?_, hcheck, hmessage⟩, d, ?_, hcheck', hmessage'⟩
  · rw [hread _ (congrArg Prod.fst hspaced), hspaced]
  · rw [hread' _ (congrArg Prod.fst hplain), hplain]

end IntervalRules.Session
