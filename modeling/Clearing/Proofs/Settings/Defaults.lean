import Clearing.Toml

/-!
# Settings that are left out

A document of settings gives some fields and leaves out others.  What is given is read, and
what is left out is filled from defaults, but there are defaults at several levels: for all
settings, for the two profiles of a guard and for a single guard.  Which of them fills a gap
is said here for every field and every document (`Settings.fields_of_ofToml`).

A field that is left out has the value it has when nothing is set, with one exception.  If a
profile per format is given, its gaps are filled from the defaults of a single guard, which
are those of the shared one, and not from its own (`Settings.filling`).  Setting one number of
that profile thus changes others that are left out (`not_keepsDefaults_of_partProfile`).

## Strategy

A field is where it stands in a tree, how it is read there and where it is in a record
(`SettingField`).  Each reader of a record is opened once and followed by one lemma for its
fields; the fields of a part are those of the part, one step further in
(`SettingField.within`).
-/

namespace Clearing

/-! ## Fields in a tree -/

/-- Where a field stands: under its name in a table, at its position in an array. -/
structure FieldStep where
  name : String
  position : Nat

namespace ConfigNode

/-- The tree of a field. -/
def field? (step : FieldStep) : ConfigNode → Option ConfigNode
  | .table entries => entries.lookup step.name
  | .array items => items[step.position]?
  | _ => none

/-- The tree at the end of a path. -/
def at? (node : ConfigNode) (path : List FieldStep) : Option ConfigNode :=
  path.foldlM (fun node step => node.field? step) node

theorem at?_cons (node : ConfigNode) (step : FieldStep) (path : List FieldStep) :
    node.at? (step :: path) = (node.field? step).bind (·.at? path) := rfl

theorem at?_singleton (node : ConfigNode) (step : FieldStep) :
    node.at? [step] = node.field? step :=
  bind_pure (node.field? step)

/-- A table or an array is read field by field. -/
theorem fields?_eq_some {dialect : ConfigDialect} {names : List String} {node : ConfigNode}
    {slots : List (Option ConfigNode)} (hslots : node.fields? dialect names = some slots) :
    slots = names.mapIdx fun position name => node.field? ⟨name, position⟩ := by
  cases node with
  | table entries =>
      simp only [fields?, Option.ite_none_right_eq_some, Option.some.injEq] at hslots
      rw [← hslots.2]
      refine List.ext_getElem? fun position => ?_
      rw [List.getElem?_map, List.getElem?_mapIdx]
      rfl
  | array items =>
      simp only [fields?, Option.ite_none_right_eq_some, Option.some.injEq] at hslots
      rw [← hslots.2]
      refine List.ext_getElem (by simp) fun position _ _ => ?_
      simp [field?]
  | null | bool | int | float | string | time => cases hslots

/-- What is made of the fields of a table or an array. -/
theorem eq_some_of_fields? {α : Type} {dialect : ConfigDialect} {names : List String}
    {node : ConfigNode} {make : List (Option ConfigNode) → Option α} {value : α}
    (hmade : (node.fields? dialect names).bind make = some value) :
    make (names.mapIdx fun position name => node.field? ⟨name, position⟩) = some value := by
  obtain ⟨slots, hslots, hmade⟩ := Option.bind_eq_some_iff.mp hmade
  rwa [fields?_eq_some hslots] at hmade

end ConfigNode

open ConfigNode

/-! ## Fields of a record -/

/-- A field of a record: where it stands in a tree, how it is read there, and where it is in the
record. -/
structure SettingField (σ : Type) where
  {α : Type}
  path : List FieldStep
  read : ConfigNode → Option α
  get : σ → α

namespace SettingField

variable {σ τ : Type}

/-- A field of a part of a record. -/
def within (step : FieldStep) (part : τ → σ) (field : SettingField σ) : SettingField τ where
  path := step :: field.path
  read := field.read
  get record := field.get (part record)

/-- The field has the value that is given in a tree, and if it is left out there it has the value
that it has in another record. -/
structure Follows (field : SettingField σ) (node : ConfigNode) (record filled : σ) : Prop where
  given : ∀ tree, node.at? field.path = some tree → field.read tree = some (field.get record)
  left : node.at? field.path = none → field.get record = field.get filled

theorem Follows.of_get_eq {field : SettingField σ} {node : ConfigNode} {record filled other : σ}
    (hfollows : field.Follows node record filled) (hsame : field.get filled = field.get other) :
    field.Follows node record other :=
  ⟨hfollows.given, fun hleft => (hfollows.left hleft).trans hsame⟩

/-- Records in which the gaps are filled alike have the same value. -/
theorem Follows.get_eq {field : SettingField σ} {node : ConfigNode} {record other filled : σ}
    (hfollows : field.Follows node record filled) (hother : field.Follows node other filled) :
    field.get record = field.get other := by
  cases htree : node.at? field.path with
  | none => exact (hfollows.left htree).trans (hother.left htree).symm
  | some tree =>
      exact Option.some.inj ((hfollows.given tree htree).symm.trans (hother.given tree htree))

/-- A field that is read by itself. -/
theorem Follows.of_orDefault? {α : Type} {step : FieldStep} {read : ConfigNode → Option α}
    {get : σ → α} {node : ConfigNode} {record filled : σ}
    (hread : orDefault? read (get filled) (node.field? step) = some (get record)) :
    Follows ⟨[step], read, get⟩ node record filled := by
  refine ⟨fun tree htree => ?_, fun hleft => ?_⟩
  · rw [at?_singleton] at htree
    rwa [htree] at hread
  · rw [at?_singleton] at hleft
    rw [hleft] at hread
    exact (Option.some.inj hread).symm

/-- The fields of a part, which has a default of its own if nothing of it is given. -/
theorem follows_within {fields : List (SettingField σ)} {step : FieldStep} {part : τ → σ}
    {read : ConfigNode → Option σ} {default : σ} {fill : ConfigNode → σ} {node : ConfigNode}
    {record filled : τ}
    (hpart : orDefault? read default (node.field? step) = some (part record))
    (hread : ∀ tree value, read tree = some value →
      ∀ field ∈ fields, field.Follows tree value (fill tree))
    (hfilled : part filled = ((node.field? step).map fill).getD default) :
    ∀ field ∈ fields.map (within step part), field.Follows node record filled := by
  refine List.forall_mem_map.mpr fun field hfield => ?_
  cases hslot : node.field? step with
  | none =>
      rw [hslot] at hpart hfilled
      have hnone : node.at? (step :: field.path) = none := by rw [at?_cons, hslot]; rfl
      refine ⟨fun tree htree => ?_, fun _ => ?_⟩
      · rw [within, hnone] at htree
        cases htree
      · exact congrArg field.get ((Option.some.inj hpart).symm.trans hfilled.symm)
  | some tree =>
      rw [hslot] at hpart hfilled
      have hfollows := hread tree (part record) hpart field hfield
      have hpath : node.at? (step :: field.path) = tree.at? field.path := by
        rw [at?_cons, hslot]
        rfl
      refine ⟨fun inner hinner => hfollows.given inner (hpath ▸ hinner), fun hleft => ?_⟩
      exact (hfollows.left (hpath ▸ hleft)).trans (congrArg field.get hfilled.symm)

end SettingField

/-! ## Records -/

/-- The fields of batch settings. -/
def BatchSettings.fields : List (SettingField BatchSettings) :=
  [⟨[⟨"sub_batch_size", 0⟩], count?, (·.subBatchSize)⟩,
    ⟨[⟨"workers", 1⟩], count?, (·.workers)⟩,
    ⟨[⟨"in_flight_per_worker", 2⟩], count?, (·.inFlightPerWorker)⟩]

/-- The fields of retry settings. -/
def RetrySettings.fields : List (SettingField RetrySettings) :=
  [⟨[⟨"max_attempts", 0⟩], smallCount?, (·.maxAttempts)⟩,
    ⟨[⟨"initial_backoff_ms", 1⟩], count?, (·.initialBackoffMillis)⟩,
    ⟨[⟨"multiplier", 2⟩], number?, (·.multiplier)⟩,
    ⟨[⟨"max_backoff_ms", 3⟩], count?, (·.maxBackoffMillis)⟩]

/-- The fields of breaker settings. -/
def BreakerSettings.fields : List (SettingField BreakerSettings) :=
  [⟨[⟨"sliding_window_size", 0⟩], count?, (·.windowSize)⟩,
    ⟨[⟨"minimum_number_of_calls", 1⟩], count?, (·.minimumCalls)⟩,
    ⟨[⟨"failure_rate_threshold", 2⟩], number?, (·.failureThreshold)⟩,
    ⟨[⟨"wait_in_open_ms", 3⟩], count?, (·.openMillis)⟩,
    ⟨[⟨"permitted_calls_in_half_open", 4⟩], count?, (·.halfOpenCalls)⟩]

/-- The fields of bulkhead settings. -/
def BulkheadSettings.fields : List (SettingField BulkheadSettings) :=
  [⟨[⟨"max_concurrent_calls", 0⟩], count?, (·.maxConcurrent)⟩,
    ⟨[⟨"max_wait_ms", 1⟩], count?, (·.maxWaitMillis)⟩]

/-- The step to the breakers. -/
def breakerStep : FieldStep := ⟨"circuit_breaker", 4⟩

/-- The step to the bulkheads. -/
def bulkheadStep : FieldStep := ⟨"bulkhead", 5⟩

/-- The step to the profile per format. -/
def perFormatStep : FieldStep := ⟨"per_format", 1⟩

/-- The fields of two profiles. -/
def Profiles.fields {α : Type} (fields : List (SettingField α)) :
    List (SettingField (Profiles α)) :=
  fields.map (.within ⟨"global", 0⟩ (·.shared)) ++
    fields.map (.within perFormatStep (·.perFormat))

/-- The field of the cache. -/
def cacheFields : List (SettingField Nat) :=
  [⟨[⟨"ttl_ms", 0⟩], count?, id⟩]

/-- All fields. -/
def Settings.fields (dialect : ConfigDialect) : List (SettingField Settings) :=
  [⟨[⟨"processing_timeout_ms", 0⟩], count?, (·.deadlineMillis)⟩,
    ⟨[⟨"log_format", 1⟩], logFormat? dialect, (·.logFormat)⟩] ++
  BatchSettings.fields.map (.within ⟨"batch", 2⟩ (·.batch)) ++
  RetrySettings.fields.map (.within ⟨"retry", 3⟩ (·.retry)) ++
  (Profiles.fields BreakerSettings.fields).map (.within breakerStep (·.breakers)) ++
  (Profiles.fields BulkheadSettings.fields).map (.within bulkheadStep (·.bulkheads)) ++
  cacheFields.map (.within ⟨"cache", 6⟩ (·.cacheMillis))

/-- Settings are given by their fields. -/
theorem Settings.eq_of_fields {dialect : ConfigDialect} {settings other : Settings}
    (hsame : ∀ field ∈ fields dialect, field.get settings = field.get other) :
    settings = other := by
  simp only [fields, Profiles.fields, BatchSettings.fields, RetrySettings.fields,
    BreakerSettings.fields, BulkheadSettings.fields, cacheFields, SettingField.within,
    List.map_cons, List.map_nil, List.cons_append, List.nil_append, List.forall_mem_cons] at hsame
  obtain ⟨deadline, logFormat, ⟨_, _, _⟩, ⟨_, _, _, _⟩, ⟨⟨_, _, _, _, _⟩, ⟨_, _, _, _, _⟩⟩,
    ⟨⟨_, _⟩, ⟨_, _⟩⟩, cache⟩ := settings
  obtain ⟨deadline', logFormat', ⟨_, _, _⟩, ⟨_, _, _, _⟩, ⟨⟨_, _, _, _, _⟩, ⟨_, _, _, _, _⟩⟩,
    ⟨⟨_, _⟩, ⟨_, _⟩⟩, cache'⟩ := other
  simp_all

/-! ## What fills the gaps -/

/-- Two profiles from which gaps are filled: if there is a table for the profile per format, even
one without content, its own default does not count. -/
def Profiles.filling {α : Type} (initial : α) (default : Profiles α) (node : ConfigNode) :
    Profiles α :=
  { default with
    perFormat := if (node.field? perFormatStep).isSome then initial else default.perFormat }

/-- The settings from which gaps are filled. -/
def Settings.filling (node : ConfigNode) : Settings :=
  { initial with
    breakers := ((node.field? breakerStep).map
      (Profiles.filling .initial .initialBreakers)).getD .initialBreakers
    bulkheads := ((node.field? bulkheadStep).map
      (Profiles.filling .initial .initialBulkheads)).getD .initialBulkheads }

section Filling

variable {α : Type} {fields : List (SettingField α)} {initial : α} {default : Profiles α}
  {node : ConfigNode} {step : FieldStep}

theorem Profiles.filling_of_left (hleft : node.at? [step, perFormatStep] = none) :
    ((node.field? step).map (filling initial default)).getD default = default := by
  rw [at?_cons] at hleft
  cases hslot : node.field? step with
  | none => rfl
  | some table =>
      rw [hslot, Option.bind_some, at?_singleton] at hleft
      simp [filling, hleft]

/-- A field has its own default, if it is not one of a profile per format that is given. -/
theorem Profiles.get_filling {field : SettingField (Profiles α)}
    (hfield : field ∈ Profiles.fields fields)
    (hleft : [perFormatStep] <+: field.path → node.at? [step, perFormatStep] = none) :
    field.get (((node.field? step).map (filling initial default)).getD default) =
      field.get default := by
  rcases List.mem_append.mp hfield with hshared | hperFormat
  · obtain ⟨inner, -, rfl⟩ := List.mem_map.mp hshared
    cases node.field? step <;> rfl
  · obtain ⟨inner, -, rfl⟩ := List.mem_map.mp hperFormat
    rw [filling_of_left (hleft (List.prefix_append ..))]

end Filling

/-- A field has its own default, if it is not one of a profile per format that is given. -/
theorem Settings.get_filling {dialect : ConfigDialect} {node : ConfigNode}
    {field : SettingField Settings} (hfield : field ∈ fields dialect)
    (hleft : ∀ step ∈ [breakerStep, bulkheadStep], [step, perFormatStep] <+: field.path →
      node.at? [step, perFormatStep] = none) :
    field.get (filling node) = field.get initial := by
  obtain ⟨hbreaker, hbulkhead, -⟩ := by simpa only [List.forall_mem_cons] using hleft
  simp only [fields, List.mem_append] at hfield
  rcases hfield with ((((hown | hbatch) | hretry) | hbreakers) | hbulkheads) | hcache
  · simp only [List.mem_cons, List.not_mem_nil, or_false] at hown
    rcases hown with rfl | rfl <;> rfl
  · obtain ⟨inner, -, rfl⟩ := List.mem_map.mp hbatch
    rfl
  · obtain ⟨inner, -, rfl⟩ := List.mem_map.mp hretry
    rfl
  · obtain ⟨inner, hinner, rfl⟩ := List.mem_map.mp hbreakers
    exact Profiles.get_filling hinner fun hprefix =>
      hbreaker ((List.prefix_cons_inj breakerStep).mpr hprefix)
  · obtain ⟨inner, hinner, rfl⟩ := List.mem_map.mp hbulkheads
    exact Profiles.get_filling hinner fun hprefix =>
      hbulkhead ((List.prefix_cons_inj bulkheadStep).mpr hprefix)
  · obtain ⟨inner, -, rfl⟩ := List.mem_map.mp hcache
    rfl

/-! ## Readers -/

section Readers

variable {dialect : ConfigDialect} {node : ConfigNode}

theorem BatchSettings.follows_of_ofNode? {batch : BatchSettings}
    (hread : BatchSettings.ofNode? dialect node = some batch) :
    ∀ field ∈ fields, field.Follows node batch .initial := by
  have hread := eq_some_of_fields? hread
  simp only [List.mapIdx_cons, List.mapIdx_nil, Option.bind_eq_bind,
    Option.bind_eq_some_iff] at hread
  obtain ⟨size, hsize, workers, hworkers, inFlight, hinFlight, hmade⟩ := hread
  cases hmade
  simp only [fields, List.forall_mem_cons]
  exact ⟨.of_orDefault? hsize, .of_orDefault? hworkers, .of_orDefault? hinFlight,
    List.forall_mem_nil _⟩

theorem RetrySettings.follows_of_ofNode? {retry : RetrySettings}
    (hread : RetrySettings.ofNode? dialect node = some retry) :
    ∀ field ∈ fields, field.Follows node retry .initial := by
  have hread := eq_some_of_fields? hread
  simp only [List.mapIdx_cons, List.mapIdx_nil, Option.bind_eq_bind,
    Option.bind_eq_some_iff] at hread
  obtain ⟨attempts, hattempts, first, hfirst, multiplier, hmultiplier, most, hmost, hmade⟩ := hread
  cases hmade
  simp only [fields, List.forall_mem_cons]
  exact ⟨.of_orDefault? hattempts, .of_orDefault? hfirst, .of_orDefault? hmultiplier,
    .of_orDefault? hmost, List.forall_mem_nil _⟩

theorem BreakerSettings.follows_of_ofNode? {breaker : BreakerSettings}
    (hread : BreakerSettings.ofNode? dialect node = some breaker) :
    ∀ field ∈ fields, field.Follows node breaker .initial := by
  have hread := eq_some_of_fields? hread
  simp only [List.mapIdx_cons, List.mapIdx_nil, Option.bind_eq_bind,
    Option.bind_eq_some_iff] at hread
  obtain ⟨window, hwindow, minimum, hminimum, threshold, hthreshold, wait, hwait, permitted,
    hpermitted, hmade⟩ := hread
  cases hmade
  simp only [fields, List.forall_mem_cons]
  exact ⟨.of_orDefault? hwindow, .of_orDefault? hminimum, .of_orDefault? hthreshold,
    .of_orDefault? hwait, .of_orDefault? hpermitted, List.forall_mem_nil _⟩

theorem BulkheadSettings.follows_of_ofNode? {bulkhead : BulkheadSettings}
    (hread : BulkheadSettings.ofNode? dialect node = some bulkhead) :
    ∀ field ∈ fields, field.Follows node bulkhead .initial := by
  have hread := eq_some_of_fields? hread
  simp only [List.mapIdx_cons, List.mapIdx_nil, Option.bind_eq_bind,
    Option.bind_eq_some_iff] at hread
  obtain ⟨concurrent, hconcurrent, wait, hwait, hmade⟩ := hread
  cases hmade
  simp only [fields, List.forall_mem_cons]
  exact ⟨.of_orDefault? hconcurrent, .of_orDefault? hwait, List.forall_mem_nil _⟩

theorem follows_of_cacheMillisOfNode? {millis : Nat}
    (hread : cacheMillisOfNode? dialect node = some millis) :
    ∀ field ∈ cacheFields, field.Follows node millis Settings.initial.cacheMillis := by
  simp only [cacheFields, List.forall_mem_cons]
  exact ⟨.of_orDefault? (eq_some_of_fields? hread), List.forall_mem_nil _⟩

/-- The gaps of a profile that is given are filled from `initial`; only one that is not given keeps
its own default. -/
theorem Profiles.follows_of_ofNode? {α : Type} {read : ConfigDialect → ConfigNode → Option α}
    {fields : List (SettingField α)} {initial : α} {default profiles : Profiles α}
    (hfields : ∀ tree value, read dialect tree = some value →
      ∀ field ∈ fields, field.Follows tree value initial)
    (hshared : default.shared = initial)
    (hread : Profiles.ofNode? dialect read default node = some profiles) :
    ∀ field ∈ Profiles.fields fields,
      field.Follows node profiles (filling initial default node) := by
  have hread := eq_some_of_fields? hread
  simp only [List.mapIdx_cons, List.mapIdx_nil, Option.bind_eq_bind,
    Option.bind_eq_some_iff] at hread
  obtain ⟨shared, hsharedRead, perFormat, hperFormat, hmade⟩ := hread
  cases hmade
  refine List.forall_mem_append.mpr ⟨?_, ?_⟩
  · refine SettingField.follows_within hsharedRead hfields ?_
    cases node.field? ⟨"global", 0⟩ with
    | none => rfl
    | some tree => exact hshared
  · refine SettingField.follows_within hperFormat hfields ?_
    rw [filling]
    change (if (node.field? perFormatStep).isSome then _ else _) = _
    cases node.field? perFormatStep <;> rfl

/-- The fields of settings that were read. -/
theorem Settings.follows_of_ofNode? {settings : Settings}
    (hread : Settings.ofNode? dialect node = some settings) :
    ∀ field ∈ fields dialect, field.Follows node settings (filling node) := by
  have hread := eq_some_of_fields? hread
  simp only [fieldNames, List.mapIdx_cons, List.mapIdx_nil, Option.bind_eq_bind,
    Option.bind_eq_some_iff] at hread
  obtain ⟨deadline, hdeadline, logFormat, hlogFormat, batch, hbatch, retry, hretry, breakers,
    hbreakers, bulkheads, hbulkheads, cache, hcache, hmade⟩ := hread
  cases hmade
  -- Whether a part is given does not matter where both defaults are the same.
  have hsame {α : Type} (slot : Option ConfigNode) (default : α) :
      default = (slot.map fun _ => default).getD default := by
    cases slot <;> rfl
  simp only [fields, List.forall_mem_append, List.forall_mem_cons]
  refine ⟨⟨⟨⟨⟨⟨.of_orDefault? hdeadline, .of_orDefault? hlogFormat, List.forall_mem_nil _⟩, ?_⟩, ?_⟩,
    ?_⟩, ?_⟩, ?_⟩
  · exact SettingField.follows_within hbatch (fun _ _ => BatchSettings.follows_of_ofNode?)
      (hsame ..)
  · exact SettingField.follows_within hretry (fun _ _ => RetrySettings.follows_of_ofNode?)
      (hsame ..)
  · exact SettingField.follows_within hbreakers (fun _ _ => Profiles.follows_of_ofNode?
      (fun _ _ => BreakerSettings.follows_of_ofNode?) rfl) rfl
  · exact SettingField.follows_within hbulkheads (fun _ _ => Profiles.follows_of_ofNode?
      (fun _ _ => BulkheadSettings.follows_of_ofNode?) rfl) rfl
  · exact SettingField.follows_within hcache (fun _ _ => follows_of_cacheMillisOfNode?)
      (hsame ..)

end Readers

/-! ## Documents -/

namespace Settings

/-- Whatever a document leaves out has the value that it has when nothing is set. -/
def KeepsDefaults (text : String) : Prop :=
  ∀ settings, ofToml text = .ok settings → ∃ node, Toml.ofText? text = some node ∧
    ∀ field ∈ fields .toml, field.Follows node settings .initial

theorem exists_of_ofToml {text : String} {settings : Settings}
    (hsettings : ofToml text = .ok settings) :
    ∃ node, Toml.ofText? text = some node ∧ ofNode? .toml node = some settings := by
  unfold ofToml ofNode at hsettings
  split at hsettings
  · rename_i node hnode
    split at hsettings
    · rename_i unchecked hread
      refine ⟨node, hnode, hread.trans ?_⟩
      unfold checked at hsettings
      cases hcheck : unchecked.check with
      | error cause =>
          rw [hcheck] at hsettings
          cases hsettings
      | ok _ =>
          rw [hcheck] at hsettings
          cases hsettings
          rfl
    · cases hsettings
  · cases hsettings

/-- **What is given, and what fills the gaps.**  The settings of a document are the only ones that
have every value which is given, and the one from `filling` where none is.  That is the one which
holds when nothing is set, unless the field is one of a profile per format that is given. -/
theorem fields_of_ofToml {text : String} {settings : Settings}
    (hsettings : ofToml text = .ok settings) :
    ∃ node, Toml.ofText? text = some node ∧
      (∀ field ∈ fields .toml, field.Follows node settings (filling node)) ∧
      (∀ field ∈ fields .toml,
        (∀ step ∈ [breakerStep, bulkheadStep], [step, perFormatStep] <+: field.path →
          node.at? [step, perFormatStep] = none) →
        field.Follows node settings .initial) ∧
      ∀ other, (∀ field ∈ fields .toml, field.Follows node other (filling node)) →
        other = settings := by
  obtain ⟨node, hnode, hread⟩ := exists_of_ofToml hsettings
  have hfollows := follows_of_ofNode? hread
  refine ⟨node, hnode, hfollows, fun field hfield hleft => ?_, fun other hother => ?_⟩
  · exact (hfollows field hfield).of_get_eq (get_filling hfield hleft)
  · exact eq_of_fields fun field hfield => (hother field hfield).get_eq (hfollows field hfield)

/-- One number of the breaker of each format. -/
def partProfile : String :=
  "[circuit_breaker.per_format]\nminimum_number_of_calls = 20\n"

/-- What is read from it. -/
def partProfileSettings : Settings :=
  { initial with
    breakers := { Profiles.initialBreakers with
      perFormat := { BreakerSettings.initial with minimumCalls := 20 } } }

theorem ofToml_partProfile : ofToml partProfile = .ok partProfileSettings := by
  have hread : (ofToml partProfile).toOption = some partProfileSettings := by decide +kernel
  cases hresult : ofToml partProfile with
  | error cause =>
      rw [hresult] at hread
      cases hread
  | ok settings =>
      rw [hresult] at hread
      exact congrArg Except.ok (Option.some.inj hread)

theorem fields_of_ofToml_partProfile :
    ofToml partProfile = .ok partProfileSettings ∧
    ∃ node, Toml.ofText? partProfile = some node ∧
      ∀ field ∈ fields .toml, field.Follows node partProfileSettings (filling node) := by
  obtain ⟨node, hnode, hfollows, -, -⟩ := fields_of_ofToml ofToml_partProfile
  exact ⟨ofToml_partProfile, node, hnode, hfollows⟩

/-- The size of the window for each format. -/
def formatWindowSize : SettingField Settings :=
  .within breakerStep (·.breakers) <| .within perFormatStep (·.perFormat)
    ⟨[⟨"sliding_window_size", 0⟩], count?, (·.windowSize)⟩

/-- The size of the window for each format is left out, but it is not the one which holds when
nothing is set. -/
theorem not_keepsDefaults_of_partProfile : ¬ KeepsDefaults partProfile := by
  intro hkeeps
  obtain ⟨node, hnode, hfollows⟩ := hkeeps partProfileSettings ofToml_partProfile
  have hfield : formatWindowSize ∈ fields .toml := by
    simp [fields, Profiles.fields, BreakerSettings.fields, formatWindowSize]
  have hleft : (Toml.ofText? partProfile).all (fun node =>
      (node.at? formatWindowSize.path).isNone) = true := by
    decide +kernel
  rw [hnode] at hleft
  have hsame : partProfileSettings.breakers.perFormat.windowSize =
      initial.breakers.perFormat.windowSize :=
    (hfollows _ hfield).left (Option.isNone_iff_eq_none.mp hleft)
  exact absurd hsame (by decide)

end Settings

end Clearing
