import CallTelemetry.Proofs.Failing
import CallTelemetry.Proofs.Settings.Writing
import CallTelemetry.Proofs.Text.Integer
import CallTelemetry.Settings.Collector
import CallTelemetry.Settings.Web
import CallTelemetry.Storage.Salting

/-! Settings that are accepted. Each is told by the value of its own key, which the environment, the
text or a fallback gives; settings that are told so are accepted just if they are in range. -/
namespace CallTelemetry.Settings

/-- Whether a setting is what its value says. Without a value it is the fallback. -/
def Says (reads : String → α → Prop) (fallback : α) : Option String → α → Prop
  | none, a => a = fallback
  | some value, a => reads value a

/-- Whether a text writes a number from `low` to `high`. A minus sign is written only where numbers
may be negative. -/
def WritesIn (low high : Int) (value : String) (n : Int) : Prop :=
  (Text.Numeral value.toList n ∧ (value.toList.head? = some '-' → low < 0)) ∧ low ≤ n ∧ n ≤ high

def WritesInt32 (value : String) (n : Int) : Prop :=
  WritesIn Int32.minValue.toInt Int32.maxValue.toInt value n

/-- A size or duration of up to 64 bits. -/
def WritesSize (value : String) (n : Nat) : Prop := WritesIn 0 0xffffffffffffffff value n

/-- In any case of letters. -/
def WritesFlag (value : String) (b : Bool) : Prop :=
  Text.lowercase value = if b then "true" else "false"

/-- Whether a text lists some items between commas, where blanks around them and empty ones do not
count. -/
def WritesList (value : String) (items : List String) : Prop :=
  ((Text.split ',' value.toList).map fun item => String.ofList (Text.trimList item)).filter
    (fun item => !item.isEmpty) = items

namespace Properties

variable {p : Properties} {key : String}

theorem textOf_eq_iff {fallback s : String} :
    p.textOf key fallback = s ↔ Says Eq fallback (p.value? key) s := by
  unfold textOf Says
  cases p.value? key with
  | none => exact eq_comm
  | some value => exact Iff.rfl

theorem listOf_eq_iff {items : List String} :
    p.listOf key = items ↔ Says WritesList [] (p.value? key) items := by
  unfold listOf Says
  cases p.value? key with
  | none => exact eq_comm
  | some value => exact Iff.rfl

theorem integerOf_eq_ok_iff {low high fallback n : Int} :
    p.integerOf low high key fallback = .ok n ↔
      Says (WritesIn low high) fallback (p.value? key) n := by
  unfold integerOf Says
  cases p.value? key with
  | none => exact ⟨fun same => (Except.ok.inj same).symm, fun same => congrArg _ same.symm⟩
  | some value =>
    simp only [WritesIn, ← Text.integerIn?_eq_some_iff]
    cases Text.integerIn? low high value.toList <;> simp

theorem int32Of_eq_ok_iff {fallback n : Int} :
    p.int32Of key fallback = .ok n ↔ Says WritesInt32 fallback (p.value? key) n :=
  integerOf_eq_ok_iff

theorem sizeOf_eq_ok_iff {fallback n : Nat} :
    p.sizeOf key fallback = .ok n ↔ Says WritesSize fallback (p.value? key) n := by
  have natural : Says WritesSize fallback (p.value? key) n ↔
      p.integerOf 0 0xffffffffffffffff key fallback = .ok (n : Int) := by
    rw [integerOf_eq_ok_iff]
    unfold Says
    cases p.value? key with
    | none => exact Int.ofNat_inj.symm
    | some value => exact Iff.rfl
  rw [natural, sizeOf]
  cases read : p.integerOf 0 0xffffffffffffffff key fallback with
  | error e => exact iff_of_false nofun nofun
  | ok k =>
    have nonneg : 0 ≤ k := by
      have said := integerOf_eq_ok_iff.1 read
      unfold Says at said
      cases found : p.value? key with
      | none =>
        rw [found] at said
        exact said ▸ Int.natCast_nonneg fallback
      | some value =>
        rw [found] at said
        exact said.2.1
    simp only [Except.map, Except.ok.injEq]
    omega

theorem booleanOf_eq_ok_iff {fallback b : Bool} :
    p.booleanOf key fallback = .ok b ↔ Says WritesFlag fallback (p.value? key) b := by
  unfold booleanOf Says WritesFlag
  cases p.value? key with
  | none => exact ⟨fun same => (Except.ok.inj same).symm, fun same => congrArg _ same.symm⟩
  | some value =>
    simp only [Option.map_some]
    split
    next none => cases none
    next yes => cases b <;> simp_all
    next no => cases b <;> simp_all
    next other => cases b <;> simp_all

/-- A variable that is set replaces the value of its key, whatever that was. -/
theorem get?_override (p : Properties) (keys : List String) (environment : String → Option String)
    (key : String) : (p.override keys environment).get? key =
      if key ∈ keys then (environment (variableOf key)).or (p.get? key) else p.get? key := by
  unfold override
  induction keys generalizing p with
  | nil => simp
  | cons k keys ih =>
    rw [List.foldl_cons, ih]
    by_cases here : key = k
    · subst here
      cases environment (variableOf key) <;> simp [SortedMap.get?_insert]
    · cases environment (variableOf k) <;> simp [SortedMap.get?_insert, here]

end Properties

/-- The keys and values in a text, line by line. -/
def written (text : String) : List (String × String) :=
  (Text.split '\n' text.toList).filterMap Properties.line?

/-- The value that counts for a key: that of its variable if this is set, and otherwise what the text
says last. Where that is empty, no value counts, also if the text has another. -/
def chosen? (text : String) (environment : String → Option String) (key : String) : Option String :=
  match environment (variableOf key) with
  | some value => if value = "" then none else some value
  | none =>
    match lastOf (written text) key with
    | some value => if value = "" then none else some value
    | none => none

theorem value?_override (text : String) (environment : String → Option String) {keys : List String}
    {key : String} (member : key ∈ keys) :
    ((Properties.parse text).override keys environment).value? key =
      chosen? text environment key := by
  rw [Properties.value?, Properties.get?_override, if_pos member, Properties.parse, get?_ofList,
    chosen?, written]
  cases environment (variableOf key) with
  | some value => simp [Option.filter]
  | none =>
    cases lastOf ((Text.split '\n' text.toList).filterMap Properties.line?) key <;>
      simp [Option.filter]

/-- Whether a text is that of the file which the environment names. Without a name it is empty. -/
def Opened (environment : String → Option String) (file? : String → Option (List UInt8))
    (text : String) : Prop :=
  match (environment fileVariable).filter fun path => !path.isEmpty with
  | none => text = ""
  | some path => ∃ bytes, file? path = some bytes ∧ String.fromUTF8? ⟨⟨bytes⟩⟩ = some text

theorem gather_eq_ok_iff {environment : String → Option String}
    {file? : String → Option (List UInt8)} {keys : List String} {p : Properties} :
    gather environment file? keys = .ok p ↔
      ∃ text, Opened environment file? text ∧
        (Properties.parse text).override keys environment = p := by
  unfold gather Opened
  cases (environment fileVariable).filter fun path => !path.isEmpty with
  | none =>
    simp only [exists_eq_left]
    exact ⟨Except.ok.inj, congrArg Except.ok⟩
  | some path =>
    simp only [← Option.bind_eq_some_iff]
    cases (file? path).bind fun bytes => String.fromUTF8? ⟨⟨bytes⟩⟩ with
    | none => exact iff_of_false nofun nofun
    | some text =>
      simp only [Option.some.injEq, exists_eq_left']
      exact ⟨Except.ok.inj, congrArg Except.ok⟩

theorem gather_bind_eq_ok_iff {environment : String → Option String}
    {file? : String → Option (List UInt8)} {keys : List String}
    {read : Properties → Except SettingsError α} {a : α} :
    gather environment file? keys >>= read = .ok a ↔ ∃ text, Opened environment file? text ∧
      read ((Properties.parse text).override keys environment) = .ok a := by
  simp only [bind_eq_ok_iff, gather_eq_ok_iff]
  constructor
  · rintro ⟨_, ⟨text, opened, rfl⟩, answered⟩
    exact ⟨text, opened, answered⟩
  · rintro ⟨text, opened, answered⟩
    exact ⟨_, ⟨text, opened, rfl⟩, answered⟩

namespace Instrument

/-- Whether settings are what the values of their keys say, as far as the limits allow. -/
structure Told (value? : String → Option String) (i : Instrument) : Prop where
  engine : Says Eq "ASM" (value? engineKey) i.engine
  registrySize : Says WritesSize 8192 (value? registrySizeKey) i.registrySize
  maxDepth : ∃ n, Says WritesInt32 64 (value? maxDepthKey) n ∧ clampDepth n = i.maxDepth
  maxSequence : ∃ n, Says WritesInt32 5000 (value? maxSequenceKey) n ∧ clampSequence n = i.maxSequence
  overflowLogRation : ∃ n, Says WritesInt32 100 (value? overflowLogRationKey) n ∧
    max n 1 = i.overflowLogRation
  propagateException : Says WritesFlag false (value? propagateExceptionKey) i.propagateException
  lambdaSupport : Says WritesFlag true (value? lambdaSupportKey) i.lambdaSupport
  allowedJdkClasses : Says WritesList [] (value? allowedJdkClassesKey) i.allowedJdkClasses

structure InRange (i : Instrument) : Prop where
  maxDepth : i.maxDepth = -1 ∨ 2 ≤ i.maxDepth
  maxSequence : 4 ≤ i.maxSequence ∧ i.maxSequence ≤ 32767
  overflowLogRation : 1 ≤ i.overflowLogRation

theorem ofProperties_eq_ok_iff {p : Properties} {i : Instrument} :
    ofProperties p = .ok i ↔ i.Told p.value? := by
  unfold ofProperties
  simp only [bind_eq_ok_iff, Properties.sizeOf_eq_ok_iff, Properties.int32Of_eq_ok_iff,
    Properties.booleanOf_eq_ok_iff]
  constructor
  · rintro ⟨size, sized, depth, deep, length, long, ration, rationed, flag, flagged, lambda, set, made⟩
    obtain rfl := Except.ok.inj made
    exact ⟨Properties.textOf_eq_iff.1 rfl, sized, ⟨depth, deep, rfl⟩, ⟨length, long, rfl⟩,
      ⟨ration, rationed, rfl⟩, flagged, set, Properties.listOf_eq_iff.1 rfl⟩
  · rintro ⟨engine, sized, ⟨depth, deep, clamped⟩, ⟨length, long, clamped'⟩,
      ⟨ration, rationed, clamped''⟩, flagged, set, allowed⟩
    refine ⟨_, sized, depth, deep, length, long, ration, rationed, _, flagged, _, set, ?_⟩
    rw [Properties.textOf_eq_iff.2 engine, Properties.listOf_eq_iff.2 allowed, clamped, clamped',
      clamped'']
    rfl

theorem Told.congr {value? value?' : String → Option String} {i : Instrument}
    (same : ∀ key ∈ keys, value? key = value?' key) (told : i.Told value?) : i.Told value?' := by
  simp only [keys, List.forall_mem_cons] at same
  obtain ⟨engine, size, depth, length, ration, exception, lambda, classes, -⟩ := same
  exact ⟨engine ▸ told.engine, size ▸ told.registrySize, depth ▸ told.maxDepth,
    length ▸ told.maxSequence, ration ▸ told.overflowLogRation, exception ▸ told.propagateException,
    lambda ▸ told.lambdaSupport, classes ▸ told.allowedJdkClasses⟩

theorem Told.inRange {value? : String → Option String} {i : Instrument} (told : i.Told value?) :
    i.InRange := by
  obtain ⟨depth, -, clamped⟩ := told.maxDepth
  obtain ⟨length, -, clamped'⟩ := told.maxSequence
  obtain ⟨ration, -, clamped''⟩ := told.overflowLogRation
  refine ⟨?_, ?_, ?_⟩
  · rw [← clamped, clampDepth]
    split <;> omega
  · rw [← clamped', clampSequence]
    split <;> omega
  · omega

end Instrument

/-- Whether row keys can be salted with so many buckets. -/
def Salts (buckets : Nat) : Prop := ∃ s, Salting.ofBuckets buckets = .ok s ∧ s.buckets = buckets

theorem salts_of_range {buckets : Nat} (range : 1 ≤ buckets ∧ buckets ≤ 256) : Salts buckets :=
  ⟨⟨buckets, range.1, range.2⟩, dif_pos range, rfl⟩

namespace Collector

/-- Whether settings are what the values of their keys say. -/
structure Told (value? : String → Option String) (c : Collector) : Prop where
  enable : Says WritesFlag true (value? enableKey) c.bulk.enable
  limitSize : Says WritesSize 100000 (value? limitSizeKey) c.bulk.limitSize
  calleeLimitSize : Says WritesSize 100000 (value? calleeLimitSizeKey) c.bulk.calleeLimitSize
  flushInterval : Says WritesSize 1000 (value? flushIntervalKey) c.bulk.flushInterval
  batchSize : Says WritesSize 1000 (value? batchSizeKey) c.bulk.batchSize
  receiverBind : Says Eq "0.0.0.0:9993" (value? receiverBindKey) c.receiverBind
  buckets : Says WritesSize 16 (value? bucketsKey) c.buckets
  tableNamespace : Says Eq "default" (value? tableNamespaceKey) c.tableNamespace
  instrument : c.instrument.Told value?

/-- Whether a collector can run with settings. -/
structure InRange (c : Collector) : Prop where
  limitSize : 0 < c.bulk.limitSize
  calleeLimitSize : 0 < c.bulk.calleeLimitSize
  flushInterval : 0 < c.bulk.flushInterval
  batchSize : 0 < c.bulk.batchSize
  buckets : 1 ≤ c.buckets ∧ c.buckets ≤ 256
  salts : Salts c.buckets
  receiverBind : SocketAddress.valid c.receiverBind
  instrument : c.instrument.InRange

theorem check_eq_ok_iff {c : Collector} (limited : c.instrument.InRange) :
    c.check = .ok () ↔ c.InRange := by
  unfold check
  simp only [refused_or_eq_ok_iff, refused_or_pure_eq_ok_iff, not_or, Nat.not_lt]
  constructor
  · rintro ⟨⟨limit, calleeLimit⟩, interval, batch, buckets, bind⟩
    exact ⟨Nat.pos_of_ne_zero limit, Nat.pos_of_ne_zero calleeLimit, Nat.pos_of_ne_zero interval,
      Nat.pos_of_ne_zero batch, buckets, salts_of_range buckets, by simpa using bind, limited⟩
  · intro range
    exact ⟨⟨range.limitSize.ne', range.calleeLimitSize.ne'⟩, range.flushInterval.ne',
      range.batchSize.ne', range.buckets, by simp [range.receiverBind]⟩

theorem ofProperties_eq_ok_iff {p : Properties} {c : Collector} :
    ofProperties p = .ok c ↔ c.Told p.value? ∧ c.InRange := by
  unfold ofProperties
  simp only [bind_eq_ok_iff, Properties.sizeOf_eq_ok_iff, Properties.booleanOf_eq_ok_iff,
    Instrument.ofProperties_eq_ok_iff]
  constructor
  · rintro ⟨enable, enabled, limit, limited, calleeLimit, calleeLimited, interval, flushed, size,
      batched, buckets, counted, i, instrumented, ⟨⟩, checked, made⟩
    obtain rfl := Except.ok.inj made
    exact ⟨⟨enabled, limited, calleeLimited, flushed, batched, Properties.textOf_eq_iff.1 rfl, counted,
      Properties.textOf_eq_iff.1 rfl, instrumented⟩, (check_eq_ok_iff instrumented.inRange).1 checked⟩
  · rintro ⟨⟨enabled, limited, calleeLimited, flushed, batched, bound, counted, named, instrumented⟩,
      range⟩
    have bind := Properties.textOf_eq_iff.2 bound
    have namespace_ := Properties.textOf_eq_iff.2 named
    refine ⟨_, enabled, _, limited, _, calleeLimited, _, flushed, _, batched, _, counted, _,
      instrumented, (), ?_, ?_⟩
    · rw [bind, namespace_]
      exact (check_eq_ok_iff range.instrument).2 range
    · rw [bind, namespace_]
      rfl

theorem Told.congr {value? value?' : String → Option String} {c : Collector}
    (same : ∀ key ∈ keys ++ Instrument.keys, value? key = value?' key) (told : c.Told value?) :
    c.Told value?' := by
  obtain ⟨own, shared⟩ := List.forall_mem_append.1 same
  simp only [keys, List.forall_mem_cons] at own
  obtain ⟨enable, limit, calleeLimit, interval, batch, bind, buckets, named, -⟩ := own
  exact ⟨enable ▸ told.enable, limit ▸ told.limitSize, calleeLimit ▸ told.calleeLimitSize,
    interval ▸ told.flushInterval, batch ▸ told.batchSize, bind ▸ told.receiverBind,
    buckets ▸ told.buckets, named ▸ told.tableNamespace, told.instrument.congr shared⟩

theorem ofProperties_override_eq_ok_iff {text : String} {environment : String → Option String}
    {c : Collector} :
    ofProperties ((Properties.parse text).override (keys ++ Instrument.keys) environment) = .ok c ↔
      c.Told (chosen? text environment) ∧ c.InRange := by
  have same : ∀ key ∈ keys ++ Instrument.keys, _ := fun key member =>
    value?_override text environment member
  rw [ofProperties_eq_ok_iff]
  exact and_congr_left' ⟨.congr same, .congr fun key member => (same key member).symm⟩

end Collector

namespace Web

/-- Whether settings are what the values of their keys say. -/
structure Told (value? : String → Option String) (w : Web) : Prop where
  buildTimeout : Says WritesSize 600000 (value? buildTimeoutKey) w.buildTimeout
  linkLimit : Says WritesSize 500000000 (value? linkLimitKey) w.linkLimit
  buckets : Says WritesSize 16 (value? bucketsKey) w.buckets
  tableNamespace : Says Eq "default" (value? tableNamespaceKey) w.tableNamespace

/-- Whether maps can be drawn with settings. -/
structure InRange (w : Web) : Prop where
  buildTimeout : 0 < w.buildTimeout
  buckets : 1 ≤ w.buckets ∧ w.buckets ≤ 256
  salts : Salts w.buckets

theorem check_eq_ok_iff {w : Web} : w.check = .ok () ↔ w.InRange := by
  unfold check
  simp only [refused_or_eq_ok_iff, refused_or_pure_eq_ok_iff, not_or, Nat.not_lt]
  constructor
  · rintro ⟨timeout, buckets⟩
    exact ⟨Nat.pos_of_ne_zero timeout, buckets, salts_of_range buckets⟩
  · intro range
    exact ⟨range.buildTimeout.ne', range.buckets⟩

theorem ofProperties_eq_ok_iff {p : Properties} {w : Web} :
    ofProperties p = .ok w ↔ w.Told p.value? ∧ w.InRange := by
  unfold ofProperties
  simp only [bind_eq_ok_iff, Properties.sizeOf_eq_ok_iff]
  constructor
  · rintro ⟨timeout, timed, limit, limited, buckets, counted, ⟨⟩, checked, made⟩
    obtain rfl := Except.ok.inj made
    exact ⟨⟨timed, limited, counted, Properties.textOf_eq_iff.1 rfl⟩, check_eq_ok_iff.1 checked⟩
  · rintro ⟨⟨timed, limited, counted, named⟩, range⟩
    have namespace_ := Properties.textOf_eq_iff.2 named
    refine ⟨_, timed, _, limited, _, counted, (), ?_, ?_⟩
    · rw [standard, namespace_]
      exact check_eq_ok_iff.2 range
    · rw [standard, namespace_]
      rfl

theorem Told.congr {value? value?' : String → Option String} {w : Web}
    (same : ∀ key ∈ keys, value? key = value?' key) (told : w.Told value?) : w.Told value?' := by
  simp only [keys, List.forall_mem_cons] at same
  obtain ⟨timeout, limit, buckets, named, -⟩ := same
  exact ⟨timeout ▸ told.buildTimeout, limit ▸ told.linkLimit, buckets ▸ told.buckets,
    named ▸ told.tableNamespace⟩

theorem ofProperties_override_eq_ok_iff {text : String} {environment : String → Option String}
    {w : Web} :
    ofProperties ((Properties.parse text).override keys environment) = .ok w ↔
      w.Told (chosen? text environment) ∧ w.InRange := by
  have same : ∀ key ∈ keys, _ := fun key member => value?_override text environment member
  rw [ofProperties_eq_ok_iff]
  exact and_congr_left' ⟨.congr same, .congr fun key member => (same key member).symm⟩

end Web

/-- Settings are accepted just if each is what the value says that counts for its key and all are in
range. A limit on call stacks is brought into its range, where other settings are refused. The text
may be that of a file. -/
theorem accepted_iff_told_in_range (environment : String → Option String) :
    (∀ text,
      (∀ c, Collector.ofProperties ((Properties.parse text).override
          (Collector.keys ++ Instrument.keys) environment) = .ok c ↔
        c.Told (chosen? text environment) ∧ c.InRange) ∧
      ∀ w, Web.ofProperties ((Properties.parse text).override Web.keys environment) = .ok w ↔
        w.Told (chosen? text environment) ∧ w.InRange) ∧
    ∀ file?,
      (∀ c, Collector.ofEnvironment environment file? = .ok c ↔
        ∃ text, Opened environment file? text ∧ c.Told (chosen? text environment) ∧ c.InRange) ∧
      ∀ w, Web.ofEnvironment environment file? = .ok w ↔
        ∃ text, Opened environment file? text ∧ w.Told (chosen? text environment) ∧ w.InRange := by
  refine ⟨fun text => ⟨fun c => Collector.ofProperties_override_eq_ok_iff,
    fun w => Web.ofProperties_override_eq_ok_iff⟩, fun file? => ⟨fun c => ?_, fun w => ?_⟩⟩
  · simp only [← Collector.ofProperties_override_eq_ok_iff]
    exact gather_bind_eq_ok_iff
  · simp only [← Web.ofProperties_override_eq_ok_iff]
    exact gather_bind_eq_ok_iff

/-- Of two lines the last counts, an empty variable stands for the fallback, and a negative length is
the longest. -/
example :
    let text := "bulk.batch.size = 7\ncollector.rowkey.buckets=0\ncollector.rowkey.buckets: 256"
    let environment := fun
      | "PINPOINT_BULK_BATCH_SIZE" => some ""
      | "PINPOINT_PROFILER_CALLSTACK_MAX_SEQUENCE" => some "-1"
      | _ => none
    let p := (Properties.parse text).override (Collector.keys ++ Instrument.keys) environment
    (Collector.ofProperties p).toOption.map
        (fun c => (c.bulk.batchSize, c.buckets, c.instrument.maxSequence)) =
      some (1000, 256, 32767) := by
  decide +kernel

end CallTelemetry.Settings
