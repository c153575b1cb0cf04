import CallTelemetry.Proofs.Failing
import CallTelemetry.Proofs.Topology.Union
import CallTelemetry.Topology.Drawing

/-! What the nodes of a map are given. All calls are made at once, and what they answer is laid over
the nodes one after another; every node is given what was answered for its own application, whichever
call was answered first, and if one call fails there is no map. -/
namespace CallTelemetry

namespace SortedMap

/-- Changes entries one after another, as far as there is something to change them by. -/
def layEntries (f : β → γ → β) : List (α × β) → List γ → List (α × β)
  | (k, v) :: entries, c :: given => (k, f v c) :: layEntries f entries given
  | entries, _ => entries

theorem keys_layEntries (f : β → γ → β) (entries : List (α × β)) (given : List γ) :
    (layEntries f entries given).map Prod.fst = entries.map Prod.fst := by
  induction entries generalizing given with
  | nil => rfl
  | cons e entries ih =>
    cases given with
    | nil => rfl
    | cons c given => simp [layEntries, ih]

/-- Values that are read for the keys, in their order, meet the entries of these keys. -/
theorem mem_layEntries {f : α → Except ε γ} {g : β → γ → β} {entries : List (α × β)}
    {given : List γ} (read : (entries.map Prod.fst).mapM f = .ok given) {k : α} {v : β}
    (member : (k, v) ∈ entries) : ∃ c, f k = .ok c ∧ (k, g v c) ∈ layEntries g entries given := by
  induction entries generalizing given with
  | nil => cases member
  | cons e entries ih =>
    rw [List.map_cons, List.mapM_cons] at read
    obtain ⟨c, first, read⟩ := answered_of_bind read
    obtain ⟨cs, rest, read⟩ := answered_of_bind read
    obtain rfl : c :: cs = given := Except.ok.inj read
    rcases List.mem_cons.1 member with rfl | member
    · exact ⟨c, first, List.mem_cons_self⟩
    · obtain ⟨c', answer, laid⟩ := ih rest member
      exact ⟨c', answer, List.mem_cons_of_mem _ laid⟩

variable [Ord α]

def lay (m : SortedMap α β) (f : β → γ → β) (given : List γ) : SortedMap α β where
  entries := layEntries f m.entries given
  ascending := by
    have kept := m.keys_ascending
    rw [keys, ← keys_layEntries f m.entries given] at kept
    exact List.pairwise_map.1 kept

@[simp] theorem keys_lay (m : SortedMap α β) (f : β → γ → β) (given : List γ) :
    (m.lay f given).keys = m.keys := keys_layEntries f m.entries given

theorem get?_lay [Std.LawfulEqOrd α] {f : α → Except ε γ} {g : β → γ → β} {m : SortedMap α β}
    {given : List γ} (read : m.keys.mapM f = .ok given) {k : α} {v : β} (found : m.get? k = some v) :
    ∃ c, f k = .ok c ∧ (m.lay g given).get? k = some (g v c) := by
  obtain ⟨c, answer, laid⟩ := mem_layEntries read (mem_entries_iff.2 found)
  exact ⟨c, answer, mem_entries_iff.1 laid⟩

end SortedMap

namespace Topology

section

variable {ε β : Type}

/-- Whether a value is what a call answers, if there is a call. -/
inductive Answers : Option (Except ε β) → Option β → Prop
  | unasked : Answers none none
  | answered (b : β) : Answers (some (.ok b)) (some b)

theorem Answers.of_some {call : Except ε β} {b? : Option β} (answers : Answers (some call) b?) :
    ∃ b, call = .ok b ∧ b? = some b := by
  cases call with
  | error e => cases answers
  | ok b =>
    cases answers
    exact ⟨b, rfl, rfl⟩

def ask (call? : Option (Except ε β)) : Except ε (Option β) :=
  match call? with
  | some call => some <$> call
  | none => pure none

theorem ask_eq_ok_iff {call? : Option (Except ε β)} {b? : Option β} :
    ask call? = .ok b? ↔ Answers call? b? := by
  constructor
  · intro asked
    cases call? with
    | none =>
      obtain rfl := Except.ok.inj asked
      exact .unasked
    | some call =>
      cases call with
      | error e => cases asked
      | ok b =>
        obtain rfl := Except.ok.inj asked
        exact .answered b
  · intro answers
    cases answers <;> rfl

theorem ask_eq_error_iff {call? : Option (Except ε β)} {e : ε} :
    ask call? = .error e ↔ call? = some (.error e) := by
  constructor
  · intro asked
    cases call? with
    | none => cases asked
    | some call =>
      cases call with
      | error e' =>
        obtain rfl := Except.error.inj asked
        rfl
      | ok b => cases asked
  · rintro rfl
    rfl

/-- Of calls that are made at once, the first that is answered by a failure fails all of them. Answers
are listed in the order of the calls. -/
def joinAll {α : Type} (f : α → Except ε β) (calls answered : List α) : Except ε (List β) := do
  let _ ← answered.mapM f
  calls.mapM f

theorem failed_of_joinAll {α : Type} {f : α → Except ε β} {calls answered : List α}
    (order : answered.Perm calls) {e : ε} (failed : joinAll f calls answered = .error e) :
    ∃ a ∈ calls, f a = .error e := by
  rcases failed_of_bind failed with failed | ⟨_, _, failed⟩
  · obtain ⟨a, member, failed⟩ := failed_of_mapM failed
    exact ⟨a, order.mem_iff.1 member, failed⟩
  · exact failed_of_mapM failed

end

section

variable {ε : Type} (histogram? : Option (Application → Except ε NodeHistogram))
  (servers? : Option (Application → Option NodeHistogram → Except ε ServerGroups))

/-- Whether a node has what is answered for an application: its histogram, and its servers for that
histogram. -/
structure Given (a : Application) (n : Node) : Prop where
  histogram : Answers (histogram?.map (· a)) n.histogram
  servers : Answers (servers?.map (· a n.histogram)) n.servers

/-- Whether a call for an application fails. -/
inductive Refused (a : Application) (e : ε) : Prop
  | histogram (failed : histogram?.map (· a) = some (.error e))
  | servers {h : Option NodeHistogram} (before : Answers (histogram?.map (· a)) h)
      (failed : servers?.map (· a h) = some (.error e))

theorem attachment_eq (a : Application) : attachment histogram? servers? a = do
    let h ← ask (histogram?.map (· a))
    let g ← ask (servers?.map (· a h))
    return ⟨h, g⟩ := by
  cases histogram? <;> cases servers? <;> rfl

theorem attachment_eq_ok_iff {a : Application} {n : Node} :
    attachment histogram? servers? a = .ok n ↔ Given histogram? servers? a n := by
  rw [attachment_eq]
  constructor
  · intro attached
    obtain ⟨h, measured, attached⟩ := answered_of_bind attached
    obtain ⟨g, listed, attached⟩ := answered_of_bind attached
    obtain rfl := Except.ok.inj attached
    exact ⟨ask_eq_ok_iff.1 measured, ask_eq_ok_iff.1 listed⟩
  · rintro ⟨measured, listed⟩
    have rest : (do
        let g ← ask (servers?.map (· a n.histogram))
        return ⟨n.histogram, g⟩) = Except.ok (ε := ε) n := by
      rw [ask_eq_ok_iff.2 listed]
      rfl
    rw [ask_eq_ok_iff.2 measured]
    exact rest

theorem attachment_eq_error_iff {a : Application} {e : ε} :
    attachment histogram? servers? a = .error e ↔ Refused histogram? servers? a e := by
  rw [attachment_eq]
  constructor
  · intro failed
    rcases failed_of_bind failed with failed | ⟨h, measured, failed⟩
    · exact .histogram (ask_eq_error_iff.1 failed)
    · rcases failed_of_bind failed with failed | ⟨g, _, failed⟩
      · exact .servers (ask_eq_ok_iff.1 measured) (ask_eq_error_iff.1 failed)
      · cases failed
  · rintro (failed | @⟨h, before, failed⟩)
    · rw [ask_eq_error_iff.2 failed]
      rfl
    · have rest : (do
          let g ← ask (servers?.map (· a h))
          return ⟨h, g⟩) = Except.error (α := Node) e := by
        rw [ask_eq_error_iff.2 failed]
        rfl
      rw [ask_eq_ok_iff.2 before]
      exact rest

end

/-- What is given to a node replaces what is there. -/
def Node.attach (n given : Node) : Node :=
  ⟨given.histogram.or n.histogram, given.servers.or n.servers⟩

@[simp] theorem Node.bare_attach (n : Node) : Node.bare.attach n = n := by
  simp [attach, bare]

namespace ApplicationMap

variable {ε : Type}

/-- Gives the nodes of a map one after another what is answered for a list of them. -/
def attachAll (histogram? : Option (Application → Except ε NodeHistogram))
    (servers? : Option (Application → Option NodeHistogram → Except ε ServerGroups))
    (answered : List Application) (m : ApplicationMap) : Except ε ApplicationMap :=
  if histogram?.isNone && servers?.isNone then .ok m
  else do
    let given ← joinAll (attachment histogram? servers?) m.nodes.keys answered
    return { m with nodes := m.nodes.lay Node.attach given }

/-- Whether a map is another one with nodes that are what they should be for their applications. -/
structure Decorated (p : Application → Node → Prop) (m m' : ApplicationMap) : Prop where
  range : m'.range = m.range
  links : m'.links = m.links
  keys : m'.nodes.keys = m.nodes.keys
  given : ∀ a ∈ m.nodes.keys, ∃ n, m'.nodes.get? a = some n ∧ p a n

theorem Decorated.mono {p q : Application → Node → Prop} {m m' : ApplicationMap}
    (decorated : Decorated p m m') (weaker : ∀ a n, p a n → q a n) : Decorated q m m' where
  range := decorated.range
  links := decorated.links
  keys := decorated.keys
  given a member := by
    obtain ⟨n, found, given⟩ := decorated.given a member
    exact ⟨n, found, weaker a n given⟩

/-- There is one way to give every node what is answered for it. -/
theorem Decorated.eq {f : Application → Except ε Node} {m m₁ m₂ : ApplicationMap}
    (first : Decorated (f · = .ok ·) m m₁) (second : Decorated (f · = .ok ·) m m₂) : m₁ = m₂ := by
  have nodes : m₁.nodes = m₂.nodes := by
    apply SortedMap.ext_get?
    intro a
    by_cases member : a ∈ m.nodes.keys
    · obtain ⟨n, found, answer⟩ := first.given a member
      obtain ⟨n', found', answer'⟩ := second.given a member
      rw [found, found', Except.ok.inj (answer.symm.trans answer')]
    · have absent (m' : ApplicationMap) (keys : m'.nodes.keys = m.nodes.keys) :
          m'.nodes.get? a = none := by
        rw [← keys, SortedMap.mem_keys_iff] at member
        simpa using member
      rw [absent m₁ first.keys, absent m₂ second.keys]
  cases m₁
  cases m₂
  cases nodes
  cases first.range.trans second.range.symm
  cases first.links.trans second.links.symm
  rfl

/-- Whether an outcome is a map with what is answered for every node, or a failure of that. -/
structure Settles (f : Application → Except ε Node) (m : ApplicationMap)
    (outcome : Except ε ApplicationMap) : Prop where
  decorated : ∀ m', outcome = .ok m' → Decorated (f · = .ok ·) m m'
  failed : ∀ e, outcome = .error e → ∃ a ∈ m.nodes.keys, f a = .error e

theorem Settles.ok_of_ok {f : Application → Except ε Node} {m : ApplicationMap}
    {first second : Except ε ApplicationMap} (settles : Settles f m first)
    (settles' : Settles f m second) {m' : ApplicationMap} (answered : first = .ok m') :
    second = .ok m' := by
  have decorated := settles.decorated m' answered
  cases second with
  | error e =>
    obtain ⟨a, member, failed⟩ := settles'.failed e rfl
    obtain ⟨n, -, answer⟩ := decorated.given a member
    cases failed.symm.trans answer
  | ok m₂ => rw [decorated.eq (settles'.decorated m₂ rfl)]

theorem decorated_of_decorate {f : Application → Except ε Node} {m m' : ApplicationMap}
    (decorated : m.decorate f = .ok m') : Decorated (f · = .ok ·) m m' := by
  obtain ⟨nodes, read, same⟩ := answered_of_bind decorated
  obtain rfl := Except.ok.inj same
  obtain ⟨only, all⟩ := answers_of_mapM read
  have told (a : Application) (n : Node) : (a, n) ∈ nodes ↔ a ∈ m.nodes.keys ∧ f a = .ok n := by
    constructor
    · intro member
      obtain ⟨a', inside, paired⟩ := only (a, n) member
      obtain ⟨n', answer, pair⟩ := answered_of_bind paired
      obtain ⟨rfl, rfl⟩ := Prod.mk.inj (Except.ok.inj pair)
      exact ⟨inside, answer⟩
    · rintro ⟨inside, answer⟩
      obtain ⟨pair, member, paired⟩ := all a inside
      rw [answer] at paired
      obtain rfl := Except.ok.inj paired
      exact member
  have given (a : Application) (member : a ∈ m.nodes.keys) :
      ∃ n, (SortedMap.ofList nodes).get? a = some n ∧ f a = .ok n := by
    obtain ⟨_, -, paired⟩ := all a member
    obtain ⟨n, answer, -⟩ := answered_of_bind paired
    have listed : (a, n) ∈ nodes := (told a n).2 ⟨member, answer⟩
    refine ⟨n, (SortedMap.get?_ofList fun n' listed' _ => ?_).2 listed, answer⟩
    exact Except.ok.inj (((told a n').1 listed').2.symm.trans answer)
  refine ⟨rfl, rfl, SortedMap.keys_ext fun a => ?_, given⟩
  rw [SortedMap.mem_keys_ofList]
  constructor
  · rintro ⟨n, member⟩
    exact ((told a n).1 member).1
  · intro member
    obtain ⟨n, -, answer⟩ := given a member
    exact ⟨n, (told a n).2 ⟨member, answer⟩⟩

theorem failed_of_decorate {f : Application → Except ε Node} {m : ApplicationMap} {e : ε}
    (failed : m.decorate f = .error e) : ∃ a ∈ m.nodes.keys, f a = .error e := by
  rcases failed_of_bind failed with failed | ⟨_, _, failed⟩
  · obtain ⟨a, member, failed⟩ := failed_of_mapM failed
    rcases failed_of_bind failed with failed | ⟨_, _, failed⟩
    · exact ⟨a, member, failed⟩
    · cases failed
  · cases failed

theorem settles_decorate (f : Application → Except ε Node) (m : ApplicationMap) :
    Settles f m (m.decorate f) :=
  ⟨fun _ => decorated_of_decorate, fun _ => failed_of_decorate⟩

section

variable {histogram? : Option (Application → Except ε NodeHistogram)}
  {servers? : Option (Application → Option NodeHistogram → Except ε ServerGroups)}
  {m : ApplicationMap} {answered : List Application}

theorem decorated_of_attachAll (bare : ∀ a n, m.nodes.get? a = some n → n = .bare)
    {m' : ApplicationMap} (attached : m.attachAll histogram? servers? answered = .ok m') :
    Decorated (attachment histogram? servers? · = .ok ·) m m' := by
  have there (a : Application) (member : a ∈ m.nodes.keys) : m.nodes.get? a = some .bare := by
    obtain ⟨n, found⟩ := Option.ne_none_iff_exists'.1 (SortedMap.mem_keys_iff.1 member)
    rw [found, bare a n found]
  unfold attachAll at attached
  split at attached
  next nothing =>
    obtain rfl := Except.ok.inj attached
    simp only [Bool.and_eq_true, Option.isNone_iff_eq_none] at nothing
    obtain ⟨rfl, rfl⟩ := nothing
    exact ⟨rfl, rfl, rfl, fun a member => ⟨.bare, there a member, rfl⟩⟩
  next =>
    obtain ⟨given, joined, attached⟩ := answered_of_bind attached
    obtain rfl := Except.ok.inj attached
    obtain ⟨_, _, read⟩ := answered_of_bind joined
    refine ⟨rfl, rfl, SortedMap.keys_lay .., fun a member => ?_⟩
    obtain ⟨n, answer, laid⟩ := SortedMap.get?_lay (g := Node.attach) read (there a member)
    rw [Node.bare_attach] at laid
    exact ⟨n, laid, answer⟩

theorem failed_of_attachAll (order : answered.Perm m.nodes.keys) {e : ε}
    (failed : m.attachAll histogram? servers? answered = .error e) :
    ∃ a ∈ m.nodes.keys, attachment histogram? servers? a = .error e := by
  unfold attachAll at failed
  split at failed
  · cases failed
  · rcases failed_of_bind failed with failed | ⟨_, _, failed⟩
    · exact failed_of_joinAll order failed
    · cases failed

theorem settles_attachAll (bare : ∀ a n, m.nodes.get? a = some n → n = .bare)
    (order : answered.Perm m.nodes.keys) :
    Settles (attachment histogram? servers?) m (m.attachAll histogram? servers? answered) :=
  ⟨fun _ => decorated_of_attachAll bare, fun _ => failed_of_attachAll order⟩

end

/-- Whether an outcome is a map with all that is answered for its nodes, or the failure of a call for
one of them and no map. -/
structure AllOrNothing (histogram? : Option (Application → Except StoreError NodeHistogram))
    (servers? : Option (Application → Option NodeHistogram → Except StoreError ServerGroups))
    (m : ApplicationMap) (outcome : Except MapError ApplicationMap) : Prop where
  all : (∀ a ∈ m.nodes.keys, ∀ e, ¬ Refused histogram? servers? a e) →
    ∃ m', outcome = .ok m' ∧ Decorated (Given histogram? servers?) m m'
  nothing : ∀ a ∈ m.nodes.keys, ∀ e, Refused histogram? servers? a e →
    ∃ b ∈ m.nodes.keys, ∃ e', Refused histogram? servers? b e' ∧ outcome = .error (.store e')

theorem Settles.allOrNothing {histogram? : Option (Application → Except StoreError NodeHistogram)}
    {servers? : Option (Application → Option NodeHistogram → Except StoreError ServerGroups)}
    {m : ApplicationMap} {outcome : Except StoreError ApplicationMap}
    (settles : Settles (attachment histogram? servers?) m outcome) :
    AllOrNothing histogram? servers? m (outcome.mapError .store) where
  all served := by
    cases outcome with
    | error e =>
      obtain ⟨a, member, refused⟩ := settles.failed e rfl
      exact absurd ((attachment_eq_error_iff ..).1 refused) (served a member e)
    | ok m' =>
      have decorated := settles.decorated m' rfl
      exact ⟨m', rfl, decorated.mono fun a n => (attachment_eq_ok_iff ..).1⟩
  nothing a member e refused := by
    cases outcome with
    | error e' =>
      obtain ⟨b, member', refused'⟩ := settles.failed e' rfl
      exact ⟨b, member', e', (attachment_eq_error_iff ..).1 refused', rfl⟩
    | ok m' =>
      obtain ⟨n, -, answer⟩ := (settles.decorated m' rfl).given a member
      cases ((attachment_eq_error_iff ..).2 refused).symm.trans answer

/-- The nodes of the map of both sides are given all that is answered for them, or there is no map.
Giving it to them one after another makes the same map, whichever call is answered first. -/
theorem build_all_or_nothing
    (histogram? : Option (Application → Except StoreError NodeHistogram))
    (servers? : Option (Application → Option NodeHistogram → Except StoreError ServerGroups))
    (range : TimeRange) (d : Duplex) :
    let m := ofDuplex range d
    AllOrNothing histogram? servers? m ((build histogram? servers? m).mapError .store) ∧
      ∀ answered : List Application, answered.Perm m.nodes.keys →
        let attached := m.attachAll histogram? servers? answered
        AllOrNothing histogram? servers? m (attached.mapError .store) ∧
          ∀ m', attached = .ok m' ↔ build histogram? servers? m = .ok m' := by
  intro m
  have built : Settles (attachment histogram? servers?) m (build histogram? servers? m) :=
    settles_decorate _ m
  refine ⟨built.allOrNothing, fun answered order => ?_⟩
  have attached : Settles (attachment histogram? servers?) m
      (m.attachAll histogram? servers? answered) :=
    settles_attachAll (unites_ofDuplex range d).bare order
  exact ⟨attached.allOrNothing, fun m' => ⟨attached.ok_of_ok built, built.ok_of_ok attached⟩⟩

/-- Lists no servers of a database. -/
def listNoDatabase (a : Application) (h : Option NodeHistogram) : Except StoreError ServerGroups :=
  if a.type = .mysql ∧ h.isSome then .error .timeout
  else .ok (.ofServers [⟨a.name, "only", a.type, .running⟩])

theorem build_all_or_nothing_halves :
    let m := ofDuplex ⟨0, 60000⟩ halfEdges
    let measure (a : Application) : Except StoreError NodeHistogram := .ok (.empty a)
    (∃ m', m.attachAll none (some listNoDatabase) m.nodes.keys.reverse = .ok m' ∧
        build none (some listNoDatabase) m = .ok m' ∧
        Decorated (Given none (some listNoDatabase)) m m') ∧
      ∃ e, (build (some measure) (some listNoDatabase) m).mapError MapError.store =
        .error (.store e) := by
  intro m measure
  constructor
  · have served : ∀ a ∈ m.nodes.keys, ∀ e, ¬ Refused none (some listNoDatabase) a e := by
      rintro a - e (failed | ⟨before, failed⟩)
      · cases failed
      · cases before
        simp [listNoDatabase] at failed
    obtain ⟨whole, anyOrder⟩ := build_all_or_nothing none (some listNoDatabase) ⟨0, 60000⟩ halfEdges
    obtain ⟨m', answered, decorated⟩ := whole.all served
    have built := eq_ok_of_mapError answered
    exact ⟨m', ((anyOrder _ (List.reverse_perm _)).2 m').2 built, built, decorated⟩
  · have member : ⟨"orders-db", .mysql⟩ ∈ m.nodes.keys := by decide
    have refused : Refused (some measure) (some listNoDatabase) ⟨"orders-db", .mysql⟩ .timeout :=
      .servers (.answered _) rfl
    obtain ⟨whole, -⟩ :=
      build_all_or_nothing (some measure) (some listNoDatabase) ⟨0, 60000⟩ halfEdges
    obtain ⟨_, -, e, -, failed⟩ := whole.nothing _ member _ refused
    exact ⟨e, failed⟩

end ApplicationMap

end Topology

end CallTelemetry
