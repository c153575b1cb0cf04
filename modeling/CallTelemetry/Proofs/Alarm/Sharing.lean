import Mathlib.Data.List.Forall2
import CallTelemetry.Proofs.Alarm.Counting
import CallTelemetry.Proofs.Failing

/-! Rules that are checked together. They share data that is asked for once, and only if some rule
needs it; still each is judged as if there were no others. -/
namespace CallTelemetry.Alarm

open CallTelemetry.Topology

/-- What a source of data is asked. -/
structure Question where
  kind : DataKind
  application : Application
  window : TimeWindow
  deriving DecidableEq

/-- What the sources answer. -/
structure Sources where
  responses : Application → TimeWindow → Except StoreError (List ResponseTime)
  outbound : Application → TimeWindow → Except StoreError Links

/-- Computations that note the questions they ask. -/
abbrev Asking (α : Type) := ExceptT AlarmError (StateM (List Question)) α

namespace Sources

def ask (kind : DataKind) (answer : Application → TimeWindow → Except StoreError α)
    (a : Application) (w : TimeWindow) : Asking α := do
  modify (· ++ [⟨kind, a, w⟩])
  ExceptT.mk (pure ((answer a w).mapError .store))

variable (s : Sources) (a : Application) (last interval : Int)

def collect (kind : DataKind) : Asking Evidence :=
  Alarm.collect (ask .responseTime s.responses) (ask .callerStatistics s.outbound) a last interval
    kind

/-- The alarms of the rules, and the questions that are asked for them. -/
def checkRules (rules : List Rule) : Except AlarmError (List Alarm) × List Question :=
  (Alarm.checkRules (s.collect a last interval) rules).run.run []

/-- What the answers for a window tell of a kind. -/
def evidenceIn (w : TimeWindow) : DataKind → Except AlarmError Evidence
  | .responseTime => ((s.responses a w).map .ofResponses).mapError .store
  | .callerStatistics => ((s.outbound a w).map .ofLinks).mapError .store

def evidence (kind : DataKind) : Except AlarmError Evidence :=
  match TimeRange.endingAt last interval with
  | .ok range => s.evidenceIn a (.ofRange range) kind
  | .error e => .error (.range e)

/-- The question about a kind, if there is a window to ask for. -/
def asked (kind : DataKind) : List Question :=
  match TimeRange.endingAt last interval with
  | .ok range => [⟨kind, a, .ofRange range⟩]
  | .error _ => []

theorem run_ask (kind : DataKind) (answer : Application → TimeWindow → Except StoreError α)
    (f : α → Evidence) (w : TimeWindow) (qs : List Question) :
    (ask kind answer a w >>= fun told => pure (f told)).run.run qs =
      (((answer a w).map f).mapError .store, qs ++ [⟨kind, a, w⟩]) := by
  have asked : (ask kind answer a w).run.run qs =
      ((answer a w).mapError .store, qs ++ [⟨kind, a, w⟩]) := rfl
  rw [run_bind, asked]
  cases answer a w <;> rfl

theorem run_collect (kind : DataKind) (qs : List Question) :
    (s.collect a last interval kind).run.run qs =
      (s.evidence a last interval kind, qs ++ asked a last interval kind) := by
  unfold collect Alarm.collect evidence asked
  cases TimeRange.endingAt last interval with
  | error e => exact congrArg (Prod.mk _) (List.append_nil qs).symm
  | ok range =>
    cases kind with
    | responseTime => exact run_ask a .responseTime s.responses .ofResponses (.ofRange range) qs
    | callerStatistics => exact run_ask a .callerStatistics s.outbound .ofLinks (.ofRange range) qs

theorem kind_of_evidence {kind : DataKind} {e : Evidence}
    (told : s.evidence a last interval kind = .ok e) : e.kind = kind := by
  have kept {α : Type} {f : α → Evidence} (alike : ∀ x, (f x).kind = kind)
      {answer : Except StoreError α} (told : (answer.map f).mapError AlarmError.store = .ok e) :
      e.kind = kind := by
    cases answer with
    | error e' => cases told
    | ok x =>
      cases told
      exact alike x
  unfold evidence at told
  cases made : TimeRange.endingAt last interval with
  | error e' =>
    rw [made] at told
    cases told
  | ok range =>
    rw [made] at told
    cases kind with
    | responseTime => exact kept (fun _ => rfl) told
    | callerStatistics => exact kept (fun _ => rfl) told

/-- The evidence that a check holds is what the answers tell. -/
def Told (held : List Evidence) : Prop :=
  ∀ e ∈ held, s.evidence a last interval e.kind = .ok e

/-- What is held of a kind is used, and a kind of which nothing is held is asked for. -/
theorem heldOrCollected_cases {held : List Evidence} (told : s.Told a last interval held)
    (kind : DataKind) (qs : List Question) :
    (∃ e, s.evidence a last interval kind = .ok e ∧
        (heldOrCollected (s.collect a last interval) held kind).run.run qs =
          (.ok (e, held), qs)) ∨
      kind ∉ held.map Evidence.kind ∧
        (heldOrCollected (s.collect a last interval) held kind).run.run qs =
          ((s.evidence a last interval kind).map fun e => (e, e :: held),
            qs ++ asked a last interval kind) := by
  unfold heldOrCollected
  cases found : held.find? fun e => e.kind == kind with
  | some e =>
    have same : e.kind = kind := by simpa using List.find?_some found
    exact .inl ⟨e, same ▸ told e (List.mem_of_find?_eq_some found), rfl⟩
  | none =>
    refine .inr ⟨?_, ?_⟩
    · simpa using found
    · dsimp only
      rw [run_bind, run_collect]
      cases s.evidence a last interval kind <;> rfl

/-- A rule that is judged alone. -/
def judge (alarm : Alarm) : Except AlarmError Alarm :=
  s.evidence a last interval alarm.checker.kind >>= alarm.check

/-- Questions for alarms of which evidence of some kinds is held: they are about other kinds, each
about one that an alarm needs, and no two about the same. -/
structure Sparing (kinds : List DataKind) (alarms : List Alarm) (qs : List Question) : Prop where
  once : (qs.map Question.kind).Nodup
  fresh : ∀ q ∈ qs, q.kind ∉ kinds
  needed : ∀ q ∈ qs, ∃ alarm ∈ alarms, alarm.checker.kind = q.kind
  posed : ∀ q ∈ qs, q ∈ asked a last interval q.kind

theorem kind_of_asked {kind : DataKind} {q : Question} (member : q ∈ asked a last interval kind) :
    q.kind = kind := by
  unfold asked at member
  split at member
  · rw [List.mem_singleton.1 member]
  · cases member

theorem once_asked (kind : DataKind) : ((asked a last interval kind).map Question.kind).Nodup := by
  unfold asked
  split
  · exact List.pairwise_singleton _ _
  · exact List.nodup_nil

theorem Sparing.none (kinds : List DataKind) (alarms : List Alarm) :
    Sparing a last interval kinds alarms [] :=
  ⟨List.nodup_nil, nofun, nofun, nofun⟩

variable {a last interval}

theorem Sparing.skip {kinds : List DataKind} {alarms : List Alarm} {qs : List Question}
    (sparing : Sparing a last interval kinds alarms qs) (alarm : Alarm) :
    Sparing a last interval kinds (alarm :: alarms) qs where
  once := sparing.once
  fresh := sparing.fresh
  needed q member := by
    obtain ⟨needy, inside, same⟩ := sparing.needed q member
    exact ⟨needy, List.mem_cons_of_mem alarm inside, same⟩
  posed := sparing.posed

/-- The question about what the first alarm needs comes before those for the others. -/
theorem Sparing.ask {kinds : List DataKind} {alarms : List Alarm} {qs : List Question}
    {alarm : Alarm} (fresh : alarm.checker.kind ∉ kinds)
    (sparing : Sparing a last interval (alarm.checker.kind :: kinds) alarms qs) :
    Sparing a last interval kinds (alarm :: alarms)
      (asked a last interval alarm.checker.kind ++ qs) where
  once := by
    rw [List.map_append]
    refine List.nodup_append.2 ⟨once_asked a last interval _, sparing.once, ?_⟩
    intro kind first kind' later same
    obtain ⟨q, member, rfl⟩ := List.mem_map.1 first
    obtain ⟨q', member', rfl⟩ := List.mem_map.1 later
    rw [kind_of_asked a last interval member] at same
    exact sparing.fresh q' member' (same ▸ List.mem_cons_self)
  fresh q member := by
    rcases List.mem_append.1 member with first | later
    · rwa [kind_of_asked a last interval first]
    · exact fun held => sparing.fresh q later (List.mem_cons_of_mem _ held)
  needed q member := by
    rcases List.mem_append.1 member with first | later
    · exact ⟨alarm, List.mem_cons_self, (kind_of_asked a last interval first).symm⟩
    · exact (sparing.skip alarm).needed q later
  posed q member := by
    rcases List.mem_append.1 member with first | later
    · rwa [kind_of_asked a last interval first]
    · exact sparing.posed q later

/-- Evidence of the kind that an alarm needs suffices to judge it. -/
theorem check_of_kind {alarm : Alarm} {e : Evidence} (kind : e.kind = alarm.checker.kind) :
    ∃ checked, alarm.check e = .ok checked := by
  have watched : ∃ count, alarm.watched e = .ok count := by
    cases callee : alarm.checker.toCallee <;> cases e <;>
      simp_all [watched, Checker.kind, Evidence.kind]
  obtain ⟨count, watched⟩ := watched
  exact ⟨_, by rw [check, watched]; rfl⟩

theorem run_check {alarm : Alarm} {e : Evidence}
    (here : s.evidence a last interval alarm.checker.kind = .ok e) {held : List Evidence}
    {alarms : List Alarm} {qs qs' : List Question}
    (rest : (checkAlarms (s.collect a last interval) held alarms).run.run qs =
      (alarms.mapM (s.judge a last interval), qs')) :
    (do
      let checked ← ExceptT.mk (pure (alarm.check e))
      return checked :: (← checkAlarms (s.collect a last interval) held alarms) :
        Asking (List Alarm)).run.run qs =
      ((alarm :: alarms).mapM (s.judge a last interval), qs') := by
  obtain ⟨checked, judged⟩ := check_of_kind (s.kind_of_evidence a last interval here)
  have first : (ExceptT.mk (pure (alarm.check e)) : Asking Alarm).run.run qs = (.ok checked, qs) := by
    rw [judged]
    rfl
  have alone : s.judge a last interval alarm = .ok checked := by
    rw [judge, here]
    exact judged
  rw [run_bind, first, List.mapM_cons, alone]
  dsimp only
  rw [run_bind, rest]
  cases alarms.mapM (s.judge a last interval) <;> rfl

/-- However much is held already, the alarms are judged as they are alone. -/
theorem run_checkAlarms (alarms : List Alarm) {held : List Evidence}
    (told : s.Told a last interval held) (qs : List Question) : ∃ more,
      (checkAlarms (s.collect a last interval) held alarms).run.run qs =
        (alarms.mapM (s.judge a last interval), qs ++ more) ∧
      Sparing a last interval (held.map Evidence.kind) alarms more := by
  -- What is held grows from alarm to alarm, and stays what the answers tell.
  induction alarms generalizing held qs with
  | nil => exact ⟨[], by rw [List.append_nil]; rfl, .none a last interval _ _⟩
  | cons alarm alarms ih =>
    unfold checkAlarms
    rw [run_bind]
    rcases s.heldOrCollected_cases a last interval told alarm.checker.kind qs with
      ⟨e, here, run⟩ | ⟨fresh, run⟩
    · obtain ⟨more, rest, sparing⟩ := ih told qs
      rw [run]
      exact ⟨more, s.run_check here rest, sparing.skip alarm⟩
    · rw [run]
      cases here : s.evidence a last interval alarm.checker.kind with
      | error e =>
        refine ⟨asked a last interval alarm.checker.kind, ?_, ?_⟩
        · rw [List.mapM_cons, judge, here]
          rfl
        · have only := Sparing.ask fresh (.none a last interval _ alarms)
          rwa [List.append_nil] at only
      | ok e =>
        have kind := s.kind_of_evidence a last interval here
        have told' : s.Told a last interval (e :: held) := by
          rintro e' (_ | ⟨_, member⟩)
          · exact kind.symm ▸ here
          · exact told e' member
        obtain ⟨more, rest, sparing⟩ := ih told' (qs ++ asked a last interval alarm.checker.kind)
        rw [List.map_cons, kind] at sparing
        rw [List.append_assoc] at rest
        exact ⟨_, s.run_check here rest, sparing.ask fresh⟩

variable (a last interval)

/-- The alarms of the rules whose checkers are known, before they are checked. -/
def known (rules : List Rule) : List Alarm := rules.filterMap fun r => (ofRule r).toOption

theorem ofRule_toOption (r : Rule) : (ofRule r).toOption =
    (Checker.ofName? r.checkerName).map fun c => ⟨c, r, none, false⟩ := by
  unfold ofRule checkerOf
  cases Checker.ofName? r.checkerName <;> rfl

theorem known_cons (r : Rule) (rules : List Rule) :
    known (r :: rules) = known [r] ++ known rules := by
  simp only [known, ← List.filterMap_append, List.singleton_append]

theorem known_single (r : Rule) : known [r] =
    ((Checker.ofName? r.checkerName).map fun c => ⟨c, r, none, false⟩).toList := by
  rw [known, List.filterMap_cons, ofRule_toOption]
  cases Checker.ofName? r.checkerName <;> rfl

/-- Rules are judged one by one, and sparingly asked for. -/
theorem checkRules_cases (rules : List Rule) :
    (s.checkRules a last interval rules).1 = (known rules).mapM (s.judge a last interval) ∧
      Sparing a last interval [] (known rules) (s.checkRules a last interval rules).2 := by
  have none : s.Told a last interval [] := nofun
  obtain ⟨more, run, sparing⟩ := s.run_checkAlarms (known rules) none []
  have same : s.checkRules a last interval rules = (_, [] ++ more) := run
  rw [same]
  exact ⟨rfl, sparing⟩

theorem checkRules_apart (rules : List Rule) : (s.checkRules a last interval rules).1 =
    List.flatten <$> rules.mapM fun r => (s.checkRules a last interval [r]).1 := by
  rw [(s.checkRules_cases a last interval rules).1]
  induction rules with
  | nil => rfl
  | cons r rules ih =>
    rw [known_cons, List.mapM_append, ih, List.mapM_cons, (s.checkRules_cases a last interval [r]).1]
    simp

/-- The window that ends at `last` and is `interval` long. -/
def window : TimeWindow := .ofRange ⟨last - interval, last⟩

/-- What becomes of a rule: its alarm is what it would be without the other rules, and is judged by
the calls of these answers. -/
structure Outcome (rs : List ResponseTime) (l : Links) (r : Rule) (alarm : Alarm) : Prop where
  rule : alarm.rule = r
  checker : Checker.ofName? r.checkerName = some alarm.checker
  alone : (s.checkRules a last interval [r]).1 = .ok [alarm]
  judged : alarm.Judged (alarm.checker.counted r.notes rs l)

theorem endingAt_of_forward (forward : 0 ≤ interval) :
    TimeRange.endingAt last interval = .ok ⟨last - interval, last⟩ := by
  rw [TimeRange.endingAt, TimeRange.of, if_neg (by omega)]

theorem endingAt_of_backward (backward : interval < 0) :
    TimeRange.endingAt last interval = .error ⟨last - interval, last⟩ := by
  rw [TimeRange.endingAt, TimeRange.of, if_pos (by omega)]

theorem eq_of_asked {q : Question} (posed : q ∈ asked a last interval q.kind) :
    q = ⟨q.kind, a, window last interval⟩ := by
  rcases Int.lt_or_le interval 0 with backward | forward
  · rw [asked, endingAt_of_backward last interval backward] at posed
    cases posed
  · rw [asked, endingAt_of_forward last interval forward] at posed
    exact List.mem_singleton.1 posed

theorem evidence_of_answers (forward : 0 ≤ interval) {rs : List ResponseTime} {l : Links}
    (responses : s.responses a (window last interval) = .ok rs)
    (outbound : s.outbound a (window last interval) = .ok l) (kind : DataKind) :
    s.evidence a last interval kind = .ok (.of rs l kind) := by
  unfold window at responses outbound
  rw [evidence, endingAt_of_forward last interval forward]
  cases kind with
  | responseTime => simp only [evidenceIn, responses]; rfl
  | callerStatistics => simp only [evidenceIn, outbound]; rfl

theorem outcome_of_answers (forward : 0 ≤ interval) {rs : List ResponseTime} {l : Links}
    (responses : s.responses a (window last interval) = .ok rs)
    (outbound : s.outbound a (window last interval) = .ok l)
    (counts : ∀ (c : Checker) (notes : String), ∀ h ∈ c.counted notes rs l, h.Counts) {r : Rule}
    {c : Checker} (named : Checker.ofName? r.checkerName = some c) :
    ∃ alarm, s.judge a last interval ⟨c, r, none, false⟩ = .ok alarm ∧
      s.Outcome a last interval rs l r alarm := by
  obtain ⟨alarm, checked, checker, rule, judged⟩ :=
    judged_of_check ⟨c, r, none, false⟩ rs l (counts c r.notes)
  have alone : s.judge a last interval ⟨c, r, none, false⟩ = .ok alarm := by
    rw [judge, s.evidence_of_answers a last interval forward responses outbound]
    exact checked
  dsimp only at checker rule judged
  refine ⟨alarm, alone, rule, checker ▸ named, ?_, checker ▸ judged⟩
  rw [(s.checkRules_cases a last interval [r]).1, known_single, named]
  dsimp only [Option.map_some, Option.toList_some]
  rw [List.mapM_cons, alone]
  rfl

theorem outcomes_of_answers (forward : 0 ≤ interval) {rs : List ResponseTime} {l : Links}
    (responses : s.responses a (window last interval) = .ok rs)
    (outbound : s.outbound a (window last interval) = .ok l)
    (counts : ∀ (c : Checker) (notes : String), ∀ h ∈ c.counted notes rs l, h.Counts)
    (rules : List Rule) : ∃ alarms,
      (known rules).mapM (s.judge a last interval) = .ok alarms ∧
        List.Forall₂ (s.Outcome a last interval rs l)
          (rules.filter fun r => (Checker.ofName? r.checkerName).isSome) alarms := by
  induction rules with
  | nil => exact ⟨[], rfl, .nil⟩
  | cons r rules ih =>
    obtain ⟨alarms, rest, outcomes⟩ := ih
    rw [known_cons, known_single]
    cases named : Checker.ofName? r.checkerName with
    | none =>
      refine ⟨alarms, rest, ?_⟩
      rwa [List.filter_cons_of_neg (by simp [named])]
    | some c =>
      obtain ⟨alarm, alone, outcome⟩ :=
        s.outcome_of_answers a last interval forward responses outbound counts named
      dsimp only [Option.map_some, Option.toList_some, List.singleton_append]
      refine ⟨alarm :: alarms, ?_, ?_⟩
      · rw [List.mapM_cons, alone, rest]
        rfl
      · rw [List.filter_cons_of_pos (by simp [named])]
        exact .cons outcome outcomes

theorem refused_of_backward (backward : interval < 0) {rules : List Rule}
    (some : ∃ r ∈ rules, (Checker.ofName? r.checkerName).isSome) :
    (known rules).mapM (s.judge a last interval) = .error (.range ⟨last - interval, last⟩) := by
  obtain ⟨r, listed, named⟩ := some
  obtain ⟨c, named⟩ := Option.isSome_iff_exists.1 named
  have member : ⟨c, r, none, false⟩ ∈ known rules :=
    List.mem_filterMap.2 ⟨r, listed, by rw [ofRule_toOption, named]; rfl⟩
  cases first : known rules with
  | nil =>
    rw [first] at member
    cases member
  | cons alarm alarms =>
    rw [List.mapM_cons, judge, evidence, endingAt_of_backward last interval backward]
    rfl

/-- How rules are judged together. -/
structure Shared (rules : List Rule) : Prop where
  /-- One after another they come to what each comes to alone. -/
  apart : (s.checkRules a last interval rules).1 =
    List.flatten <$> rules.mapM fun r => (s.checkRules a last interval [r]).1
  once : ((s.checkRules a last interval rules).2.map Question.kind).Nodup
  needed : ∀ q ∈ (s.checkRules a last interval rules).2,
    q = ⟨q.kind, a, window last interval⟩ ∧
      ∃ r ∈ rules, ∃ c, Checker.ofName? r.checkerName = some c ∧ c.kind = q.kind
  answered : 0 ≤ interval → ∀ rs l, s.responses a (window last interval) = .ok rs →
    s.outbound a (window last interval) = .ok l →
    (∀ r ∈ rs, ∀ h ∈ r.agents.values, h.Counts) →
    (∀ k ∈ l.links, ∀ t ∈ k.traffic.values, ∀ h ∈ t.slots.values, h.Counts) →
    ∃ alarms, (s.checkRules a last interval rules).1 = .ok alarms ∧
      List.Forall₂ (s.Outcome a last interval rs l)
        (rules.filter fun r => (Checker.ofName? r.checkerName).isSome) alarms
  /-- A window that would end before it begins is refused, if some rule needs it, and nothing is
  asked. -/
  backward : interval < 0 → (s.checkRules a last interval rules).2 = [] ∧
    ((∃ r ∈ rules, (Checker.ofName? r.checkerName).isSome) →
      (s.checkRules a last interval rules).1 = .error (.range ⟨last - interval, last⟩))

theorem rules_judged_apart (rules : List Rule) : s.Shared a last interval rules := by
  obtain ⟨one, sparing⟩ := s.checkRules_cases a last interval rules
  refine ⟨s.checkRules_apart a last interval rules, sparing.once, fun q member => ⟨?_, ?_⟩,
    fun forward rs l responses outbound agents links => ?_, fun backward => ⟨?_, fun known => ?_⟩⟩
  · exact eq_of_asked a last interval (sparing.posed q member)
  · obtain ⟨alarm, inside, same⟩ := sparing.needed q member
    obtain ⟨r, listed, made⟩ := List.mem_filterMap.1 inside
    rw [ofRule_toOption] at made
    obtain ⟨c, named, rfl⟩ := Option.map_eq_some_iff.1 made
    exact ⟨r, listed, c, named, same⟩
  · rw [one]
    refine s.outcomes_of_answers a last interval forward responses outbound ?_ rules
    intro c notes h member
    unfold Checker.counted at member
    split at member
    · obtain ⟨k, link, part⟩ := List.mem_flatMap.1 member
      obtain ⟨t, inside, held⟩ := List.mem_flatMap.1 part
      exact links k (List.mem_filter.1 link).1 t inside h held
    · obtain ⟨r, inside, held⟩ := List.mem_flatMap.1 member
      exact agents r inside h held
  · refine List.eq_nil_iff_forall_not_mem.2 fun q member => ?_
    have posed := sparing.posed q member
    rw [asked, endingAt_of_backward last interval backward] at posed
    cases posed
  · rw [one]
    exact s.refused_of_backward a last interval backward known

/-- A rule of which only what a check reads is told. -/
def ruleOf (checkerName : String) (threshold : Int64) (notes : String) : Rule :=
  ⟨"order-api", "TOMCAT", checkerName, threshold, "ops", true, false, false, notes⟩

/-- Answers for an application that was called ten times, three of them in vain, and that called two
others of one name. -/
def billing : Sources where
  responses a _ := .ok [((ResponseTime.empty a 0).add "agent-1" (-1) 3).add "agent-2" 1000 7]
  outbound a _ := .ok (.addAll .empty
    [⟨⟨a, ⟨"billing", .mysql⟩⟩, "agent-1", "h1", 0, 1000, 2⟩,
      ⟨⟨a, ⟨"billing", .tomcat⟩⟩, "agent-1", "h2", 0, -1, 3⟩])

/-- Rules of both kinds, and one whose checker is unknown. -/
def fourRules : List Rule :=
  [ruleOf "ERROR RATE" 30 "", ruleOf "APDEX" 1 "", ruleOf "error count" 4 "",
    ruleOf "TOTAL COUNT TO CALLEE" 5 "billing"]

theorem rules_judged_apart_billing :
    let checked := billing.checkRules ⟨"order-api", .tomcat⟩ 600000 300000 fourRules
    ∃ alarms, checked.1 = .ok alarms ∧
      alarms.map (fun alarm => (alarm.value, alarm.detected)) =
        [(some 30, true), (some 3, false), (some 5, true)] ∧
      checked.2.map Question.kind = [.responseTime, .callerStatistics] ∧
      List.Forall₂ (fun r alarm => (billing.checkRules ⟨"order-api", .tomcat⟩ 600000 300000 [r]).1 =
        .ok [alarm]) (fourRules.filter fun r => (Checker.ofName? r.checkerName).isSome) alarms := by
  intro checked
  have shared := billing.rules_judged_apart ⟨"order-api", .tomcat⟩ 600000 300000 fourRules
  obtain ⟨alarms, answered, outcomes⟩ := shared.answered (by decide) _ _ rfl rfl (by decide +kernel)
    (by decide +kernel)
  have values : checked.1.toOption.map (List.map fun alarm => (alarm.value, alarm.detected)) =
      some [(some 30, true), (some 3, false), (some 5, true)] := by decide +kernel
  rw [show checked.1 = .ok alarms from answered] at values
  refine ⟨alarms, answered, Option.some.inj values, by decide +kernel, ?_⟩
  exact outcomes.imp fun _ _ outcome => outcome.alone

/-- A negative interval asks for a window that would end before it begins, and all is refused,
although the sources would answer. -/
theorem negative_interval_refused :
    let checked :=
      billing.checkRules ⟨"order-api", .tomcat⟩ 600000 (-1) [ruleOf "TOTAL COUNT" 1 ""]
    (Checker.ofName? "TOTAL COUNT").isSome ∧ checked = (.error (.range ⟨600001, 600000⟩), []) ∧
      ∀ alarms, checked.1 ≠ .ok alarms := by
  have refused : billing.checkRules ⟨"order-api", .tomcat⟩ 600000 (-1) [ruleOf "TOTAL COUNT" 1 ""] =
      (.error (.range ⟨600001, 600000⟩), []) := by decide +kernel
  exact ⟨by decide, refused, fun alarms answered => by rw [refused] at answered; cases answered⟩

end Sources

end CallTelemetry.Alarm
