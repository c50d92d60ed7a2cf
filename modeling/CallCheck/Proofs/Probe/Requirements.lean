import CallCheck.Probe.Settings
import CallCheck.Proofs.Schema.Spellings

/-!
# What options have to be

A run has settings if its options meet some requirements, and otherwise it fails in the way that the
first of them says which is not met. `requirements` lists them. Those on files depend on what files
there are, and those on metadata on how many pairs are given.

## Checks

Each part of `Settings.ofOptions` is a check: it meets requirements of its own, and what is known of
its value is known of the settings later on. `Checks` says both, and it composes: checks that are
made one after the other have the requirements of the first and then those of the second
(`Checks.bind`).

## Main statement

`settings_of_options`, for all options and all files: when there are settings, what is reported when
there are none, and what they are.
-/

namespace CallCheck.Probe

open Session (Security Tls)

/-! ## Requirements -/

/-- What is required of options. -/
structure Requirement where
  /-- What has to be the case. -/
  Holds : Prop
  /-- What is reported otherwise. -/
  failure : Failure

/-- The first of some requirements that is not met is reported so. -/
inductive FirstUnmet : List Requirement → Failure → Prop
  | here {r : Requirement} {rest : List Requirement} : ¬ r.Holds → FirstUnmet (r :: rest) r.failure
  | later {r : Requirement} {rest : List Requirement} {f : Failure} : r.Holds →
      FirstUnmet rest f → FirstUnmet (r :: rest) f

/-- A computation has a value of some kind if requirements are met, and fails with what is reported
of the first that is not. -/
inductive Checks {α : Type} (rs : List Requirement) (Kind : α → Prop) : Except Failure α → Prop
  | ok {a : α} : (∀ r ∈ rs, r.Holds) → Kind a → Checks rs Kind (.ok a)
  | error {f : Failure} : FirstUnmet rs f → Checks rs Kind (.error f)

namespace FirstUnmet

variable {rs rs' : List Requirement} {f f' : Failure}

theorem append (hrs : FirstUnmet rs f) (rs' : List Requirement) : FirstUnmet (rs ++ rs') f := by
  induction hrs with
  | here hnot => exact .here hnot
  | later hr _ ih => exact .later hr ih

theorem of_append (hrs : ∀ r ∈ rs, r.Holds) (hrs' : FirstUnmet rs' f) :
    FirstUnmet (rs ++ rs') f := by
  induction rs with
  | nil => exact hrs'
  | cons r rs ih =>
    obtain ⟨hr, hrs⟩ := List.forall_mem_cons.1 hrs
    exact .later hr (ih hrs)

theorem not_all (hrs : FirstUnmet rs f) : ¬ ∀ r ∈ rs, r.Holds := by
  intro hall
  induction hrs with
  | here hnot => exact hnot (List.forall_mem_cons.1 hall).1
  | later _ _ ih => exact ih (List.forall_mem_cons.1 hall).2

theorem unique (hf : FirstUnmet rs f) (hf' : FirstUnmet rs f') : f = f' := by
  induction hf with
  | here hnot =>
    rcases hf' with _ | ⟨hr, -⟩
    · rfl
    · exact absurd hr hnot
  | later hr _ ih =>
    rcases hf' with hnot | ⟨-, hrest⟩
    · exact absurd hr hnot
    · exact ih hrest

end FirstUnmet

namespace Checks

variable {α β : Type} {rs rs' : List Requirement} {Kind : α → Prop} {Kind' : β → Prop}
  {x : Except Failure α} {f : Failure}

theorem exists_ok_iff (hx : Checks rs Kind x) : (∃ a, x = .ok a) ↔ ∀ r ∈ rs, r.Holds := by
  rcases hx with ⟨hall, -⟩ | hf
  · exact ⟨fun _ ↦ hall, fun _ ↦ ⟨_, rfl⟩⟩
  · constructor
    · rintro ⟨a, ha⟩
      cases ha
    · intro hall
      exact absurd hall hf.not_all

theorem eq_error_iff (hx : Checks rs Kind x) : x = .error f ↔ FirstUnmet rs f := by
  rcases hx with ⟨hall, -⟩ | hf
  · constructor
    · intro heq
      cases heq
    · intro hunmet
      exact absurd hall hunmet.not_all
  · constructor
    · intro heq
      exact Except.error.inj heq ▸ hf
    · intro hunmet
      rw [hf.unique hunmet]

theorem kind {a : α} (hx : Checks rs Kind x) (ha : x = .ok a) : Kind a := by
  subst ha
  cases hx with
  | ok _ hkind => exact hkind

/-- **One check after another.** -/
theorem bind {g : α → Except Failure β} (hx : Checks rs Kind x)
    (hg : ∀ a, Kind a → Checks rs' Kind' (g a)) : Checks (rs ++ rs') Kind' (x >>= g) := by
  rcases hx with ⟨hall, hkind⟩ | hf
  · rw [ok_bind]
    have hnext := hg _ hkind
    generalize g _ = y at hnext ⊢
    rcases hnext with ⟨hall', hkind'⟩ | hf
    · exact .ok (List.forall_mem_append.2 ⟨hall, hall'⟩) hkind'
    · exact .error (.of_append hall hf)
  · exact .error (hf.append rs')

theorem pure {a : α} (ha : Kind a) : Checks [] Kind (.ok a) :=
  .ok (fun _ hmem ↦ absurd hmem List.not_mem_nil) ha

theorem bind_pure {g : α → β} (hx : Checks rs Kind x) (hg : ∀ a, Kind a → Kind' (g a)) :
    Checks rs Kind' (x >>= fun a ↦ .ok (g a)) := by
  rw [← List.append_nil rs]
  exact hx.bind fun a ha ↦ .pure (hg a ha)

theorem map {g : α → β} (hx : Checks rs Kind x) (hg : ∀ a, Kind a → Kind' (g a)) :
    Checks rs Kind' (x.map g) := by
  rcases hx with ⟨hall, hkind⟩ | hf
  · exact .ok hall (hg _ hkind)
  · exact .error hf

theorem cons {r : Requirement} (hr : r.Holds) (hx : Checks rs Kind x) :
    Checks (r :: rs) Kind x := by
  rcases hx with ⟨hall, hkind⟩ | hf
  · exact .ok (List.forall_mem_cons.2 ⟨hr, hall⟩) hkind
  · exact .error (.later hr hf)

theorem guard {c P : Prop} [Decidable c] (hP : P ↔ ¬ c) (hx : P → Checks rs Kind x) :
    Checks (⟨P, f⟩ :: rs) Kind (if c then .error f else x) := by
  by_cases hc : c
  · rw [if_pos hc]
    exact .error (.here fun hp ↦ hP.1 hp hc)
  · rw [if_neg hc]
    exact (hx (hP.2 hc)).cons (hP.2 hc)

theorem mapM {rs : α → List Requirement} {Kind : α → β → Prop} {g : α → Except Failure β}
    (hg : ∀ a, Checks (rs a) (Kind a) (g a)) (l : List α) :
    Checks (l.flatMap rs) (List.Forall₂ Kind l) (l.mapM g) := by
  induction l with
  | nil => exact .pure .nil
  | cons a l ih =>
    rw [List.mapM_cons, List.flatMap_cons]
    refine (hg a).bind fun b hb ↦ ?_
    exact ih.bind_pure fun bs hbs ↦ .cons hb hbs

end Checks

/-! ## Texts without the blanks around them -/

/-- A text is another without the blanks at its two ends. -/
def IsTrimmed (text trimmed : List Char) : Prop :=
  ∃ before after, text = before ++ trimmed ++ after ∧
    (∀ c ∈ before, Text.isBlank c = true) ∧ (∀ c ∈ after, Text.isBlank c = true) ∧
    (∀ c ∈ trimmed.head?, Text.isBlank c = false) ∧
    ∀ c ∈ trimmed.getLast?, Text.isBlank c = false

theorem isBlank_of_head?_dropWhile {c : Char} {cs : List Char}
    (hc : c ∈ (cs.dropWhile Text.isBlank).head?) : Text.isBlank c = false := by
  have hnot := List.head?_dropWhile_not Text.isBlank cs
  rw [Option.mem_def.1 hc] at hnot
  exact hnot

theorem isTrimmed_trimChars (cs : List Char) : IsTrimmed cs (Text.trimChars cs) := by
  obtain ⟨after, hafter, hback⟩ : ∃ after, (∀ c ∈ after, Text.isBlank c = true) ∧
      cs.dropWhile Text.isBlank = Text.trimChars cs ++ after := by
    refine ⟨((cs.dropWhile Text.isBlank).reverse.takeWhile Text.isBlank).reverse, ?_, ?_⟩
    · intro c hc
      exact List.mem_takeWhile_imp (List.mem_reverse.1 hc)
    · rw [Text.trimChars, ← List.reverse_append, List.takeWhile_append_dropWhile,
        List.reverse_reverse]
  refine ⟨cs.takeWhile Text.isBlank, after, ?_, ?_, hafter, ?_, ?_⟩
  · rw [List.append_assoc, ← hback, List.takeWhile_append_dropWhile]
  · intro c hc
    exact List.mem_takeWhile_imp hc
  · intro c hc
    refine isBlank_of_head?_dropWhile (?_ : c ∈ (cs.dropWhile Text.isBlank).head?)
    rw [hback, List.head?_append, Option.mem_def.1 hc, Option.some_or]
    exact Option.mem_some_self c
  · intro c hc
    rw [Text.trimChars, List.getLast?_reverse] at hc
    exact isBlank_of_head?_dropWhile hc

theorem trimChars_eq_nil_iff {cs : List Char} :
    Text.trimChars cs = [] ↔ ∀ c ∈ cs, Text.isBlank c = true := by
  constructor
  · intro hnil
    obtain ⟨before, after, hcs, hbefore, hafter, -⟩ := isTrimmed_trimChars cs
    rw [hnil, List.append_nil] at hcs
    rw [hcs]
    exact List.forall_mem_append.2 ⟨hbefore, hafter⟩
  · intro hall
    rw [Text.trimChars, List.dropWhile_eq_nil_iff.2 hall]
    rfl

/-! ## What is called -/

/-- Either a call or a collection, and what goes with it. -/
def sourceRequirements (o : Options) : List Requirement :=
  [⟨¬ (o.call.isSome ∧ o.collection.isSome),
      .note "--call and --collection are mutually exclusive"⟩,
    ⟨o.call.isSome ∨ o.collection.isSome, .note "one of --call or --collection is required"⟩,
    ⟨o.call.isSome → ∀ text ∈ o.data, ∃ j, Json.parse? text = some j,
      ⟨["--data is not valid JSON"], .json⟩⟩,
    ⟨o.collection.isSome → o.data = none ∧ o.expects = [] ∧ o.events = [],
      .note "--data, --expect and --event apply to --call only"⟩]

theorem checks_readSource (o : Options) :
    Checks (sourceRequirements o) (fun _ ↦ True) (Settings.readSource o) := by
  rw [sourceRequirements, Settings.readSource]
  rcases o.call with _ | call <;> rcases o.collection with _ | path
  · exact .error (.later (by simp) (.here (by simp)))
  · have halone : (o.data = none ∧ o.expects = [] ∧ o.events = []) ↔
        ¬ (o.data.isSome || !o.expects.isEmpty || !o.events.isEmpty) = true := by
      simp [and_assoc]
    by_cases hmore : (o.data.isSome || !o.expects.isEmpty || !o.events.isEmpty) = true
    · have hnot := mt halone.1 (not_not_intro hmore)
      simp only [hmore]
      refine .error (.later (by simp) (.later (by simp) (.later (by simp) (.here ?_))))
      simpa using hnot
    · have hholds := halone.2 hmore
      simp only [hmore]
      exact .ok (by simpa using hholds) trivial
  · rcases o.data with _ | text
    · exact .ok (by simp) trivial
    · cases hparse : Json.parse? text with
      | none =>
        simp only [hparse]
        exact .error (.later (by simp) (.later (by simp) (.here (by simp [hparse]))))
      | some j =>
        simp only [hparse]
        exact .ok (by simp [hparse]) trivial
  · exact .error (.here (by simp))

/-! ## Where the schema comes from -/

/-- There is one schema at most. -/
def schemaRequirement (o : Options) : Requirement :=
  ⟨o.protos = [] ∨ o.protoset = none, .note "--proto and --protoset are mutually exclusive"⟩

theorem checks_readSchema (o : Options) :
    Checks [schemaRequirement o] (fun _ ↦ True) (Settings.readSchema o) := by
  rw [schemaRequirement, Settings.readSchema]
  rcases o.protos with _ | ⟨proto, protos⟩ <;> rcases o.protoset with _ | path
  · exact .ok (by simp) trivial
  · exact .ok (by simp) trivial
  · exact .ok (by simp) trivial
  · exact .error (.here (by simp))

/-! ## How connections are secured -/

/-- A certificate or a key can be read. -/
def readable (files : Files) (path : String) : Requirement :=
  ⟨(files.bytes? path).isSome, ⟨[s!"failed to read {path}"], .file⟩⟩

/-- A certificate of the client comes with its key, and both can be read. -/
def identityRequirements (files : Files) (o : Options) : List Requirement :=
  ⟨o.cert.isSome ↔ o.key.isSome, .note "--cert and --key must be given together"⟩ ::
    (o.cert.toList ++ o.key.toList).map (readable files)

/-- The certificate that vouches for the server can be read. -/
def authorityRequirements (files : Files) (o : Options) : List Requirement :=
  o.caCert.toList.map (readable files)

/-- Whether connections are secured: it is said so, or a certificate is given. -/
def Options.IsSecured (o : Options) : Prop := o.tls = true ∨ o.caCert.isSome ∨ o.cert.isSome

/-- The server has a name to show only if connections are secured. -/
def serverNameRequirement (o : Options) : Requirement :=
  ⟨o.serverName.isSome → o.IsSecured, .note "--server-name requires TLS"⟩

/-- What is required for connections to be opened, secured or not. -/
def securityRequirements (files : Files) (o : Options) : List Requirement :=
  identityRequirements files o ++ (authorityRequirements files o ++ [serverNameRequirement o])

/-- What the client shows is what the files of its certificate and its key have. -/
structure Identifies (files : Files) (o : Options) (identity : Option (List UInt8 × List UInt8)) :
    Prop where
  isSome_eq : identity.isSome = o.cert.isSome
  certificate : identity.map Prod.fst = o.cert.bind files.bytes?
  key : identity.map Prod.snd = o.key.bind files.bytes?

/-- Connections are secured just if the options say so, and then with what they name. -/
inductive Secures (files : Files) (o : Options) : Security → Prop
  | plaintext : ¬ o.IsSecured → Secures files o .plaintext
  | tls {t : Tls} : o.IsSecured → Identifies files o t.identity →
      t.authority = o.caCert.bind files.bytes? → t.serverName = o.serverName →
      Secures files o (.tls t)

theorem Secures.exists_tls_iff {files : Files} {o : Options} {security : Security}
    (hsecures : Secures files o security) : (∃ t, security = .tls t) ↔ o.IsSecured := by
  rcases hsecures with hnot | ⟨hsecured, -⟩
  · simp [hnot]
  · simp [hsecured]

theorem checks_readPem (files : Files) (path : String) :
    Checks [readable files path] (fun bytes ↦ files.bytes? path = some bytes)
      (Settings.readPem files path) := by
  rw [readable, Settings.readPem]
  cases files.bytes? path with
  | none => exact .error (.here (by simp))
  | some bytes => exact .ok (by simp) rfl

theorem checks_readIdentity (files : Files) (o : Options) :
    Checks (identityRequirements files o) (Identifies files o) (Settings.readIdentity files o) := by
  rw [identityRequirements, Settings.readIdentity]
  rcases hcert : o.cert with _ | cert <;> rcases hkey : o.key with _ | key
  · exact .ok (by simp) ⟨by simp [hcert], by simp [hcert], by simp [hkey]⟩
  · exact .error (.here (by simp))
  · exact .error (.here (by simp))
  · refine .cons (by simp) ?_
    refine (checks_readPem files cert).bind fun bytes hbytes ↦ ?_
    refine (checks_readPem files key).bind fun bytes' hbytes' ↦ .pure ⟨?_, ?_, ?_⟩
    · simp [hcert]
    · simp [hcert, hbytes]
    · simp [hkey, hbytes']

theorem checks_readAuthority (files : Files) (o : Options) :
    Checks (authorityRequirements files o)
      (fun authority ↦ authority.isSome = o.caCert.isSome ∧ authority = o.caCert.bind files.bytes?)
      (Settings.readAuthority files o) := by
  rw [authorityRequirements, Settings.readAuthority]
  rcases hca : o.caCert with _ | path
  · exact .pure ⟨rfl, rfl⟩
  · exact (checks_readPem files path).map fun bytes hbytes ↦ ⟨rfl, hbytes.symm⟩

theorem checks_readSecurity (files : Files) (o : Options) :
    Checks (securityRequirements files o) (Secures files o) (Settings.readSecurity files o) := by
  rw [securityRequirements, Settings.readSecurity]
  refine (checks_readIdentity files o).bind fun identity hidentity ↦ ?_
  refine (checks_readAuthority files o).bind fun authority ⟨hsome, hauthority⟩ ↦ ?_
  have hsecured : (o.tls || authority.isSome || identity.isSome) = true ↔ o.IsSecured := by
    rw [hsome, hidentity.isSome_eq]
    simp [Options.IsSecured, or_assoc]
  by_cases htls : (o.tls || authority.isSome || identity.isSome) = true
  · rw [if_pos htls]
    have hholds := hsecured.1 htls
    exact .cons (fun _ ↦ hholds) (.pure (.tls hholds hidentity hauthority rfl))
  · rw [if_neg htls]
    have hplain := mt hsecured.2 htls
    exact .guard (by simp [hplain]) fun _ ↦ .pure (.plaintext hplain)

/-! ## Metadata -/

/-- A pair is cut at a colon, and its key is not blank. -/
def pairRequirements (pair : String) : List Requirement :=
  [⟨':' ∈ pair.toList, .note s!"metadata `{pair}` is not in `key: value` form"⟩,
    ⟨∃ key value, pair.toList = key ++ ':' :: value ∧ ':' ∉ key ∧
        ∃ c ∈ key, Text.isBlank c = false,
      .note s!"metadata `{pair}` has an empty key"⟩]

/-- The key of a pair, in lower case, and the value, both without the blanks around them. The first
colon is between them. -/
def IsPair (pair : String) (found : String × String) : Prop :=
  ∃ key value trimmed, pair.toList = key ++ ':' :: value ∧ ':' ∉ key ∧
    IsTrimmed key trimmed ∧ found.1 = Text.asciiLower (String.ofList trimmed) ∧
    IsTrimmed value found.2.toList

theorem isEmpty_asciiLower_iff {cs : List Char} :
    (Text.asciiLower (String.ofList (Text.trimChars cs))).isEmpty = true ↔
      ∀ c ∈ cs, Text.isBlank c = true := by
  rw [← trimChars_eq_nil_iff]
  simp [Text.asciiLower]

theorem checks_parseMetadata (pair : String) :
    Checks (pairRequirements pair) (IsPair pair) (parseMetadata pair) := by
  rw [pairRequirements, parseMetadata]
  by_cases hcolon : ':' ∈ pair.toList
  · obtain ⟨key, value, hpair, hkey⟩ := List.eq_append_cons_of_mem hcolon
    have hcut : Call.Target.cutFirst ':' pair.toList = some (key, value) :=
      Call.Target.cutFirst_eq_some_iff.2 ⟨hpair, hkey⟩
    refine .cons hcolon ?_
    rw [hcut]
    refine .guard ?_ fun _ ↦ .pure ⟨key, value, _, hpair, hkey, isTrimmed_trimChars key, rfl, ?_⟩
    · rw [isEmpty_asciiLower_iff]
      constructor
      · rintro ⟨key', value', hpair', hkey', c, hc, hnot⟩ hall
        obtain ⟨rfl, -⟩ := Prod.mk.inj (Option.some.inj
          (hcut.symm.trans (Call.Target.cutFirst_eq_some_iff.2 ⟨hpair', hkey'⟩)))
        rw [hall c hc] at hnot
        cases hnot
      · intro hnot
        push Not at hnot
        obtain ⟨c, hc, hblank⟩ := hnot
        exact ⟨key, value, hpair, hkey, c, hc, Bool.eq_false_iff.2 hblank⟩
    · rw [String.toList_ofList]
      exact isTrimmed_trimChars value
  · cases hcut : Call.Target.cutFirst ':' pair.toList with
    | none => exact .error (.here hcolon)
    | some cut =>
      obtain ⟨key, value⟩ := cut
      obtain ⟨hpair, -⟩ := Call.Target.cutFirst_eq_some_iff.1 hcut
      exact absurd (hpair ▸ List.mem_append_right key List.mem_cons_self) hcolon

/-! ## All options -/

/-- The host is not blank. -/
def hostRequirement (o : Options) : Requirement :=
  ⟨∃ c ∈ o.host.toList, Text.isBlank c = false, .note "RPCPROBE_HOST must not be empty"⟩

/-- There is some time to open a connection. -/
def dialRequirement (o : Options) : Requirement :=
  ⟨o.dialTimeout ≠ 0, .note "RPCPROBE_DIAL_TIMEOUT_MS must be greater than 0"⟩

/-- What is required of options, in the order in which it is looked at. -/
def requirements (files : Files) (o : Options) : List Requirement :=
  sourceRequirements o ++ hostRequirement o :: dialRequirement o :: ([schemaRequirement o] ++
    (securityRequirements files o ++ o.metadata.flatMap pairRequirements))

/-- A time of the settings is that of the options, if there is any to wait. -/
def IsTime (given found : Option Nat) : Prop :=
  ∀ time, found = some time ↔ given = some time ∧ 0 < time

theorem isTime_positive (time : Option Nat) : IsTime time (Settings.positive time) := by
  intro t
  simp [Settings.positive, Option.filter_eq_some_iff]

/-- Settings are those of the options. -/
structure Follows (files : Files) (o : Options) (s : Settings) : Prop where
  /-- Connections are secured just if the options say so. -/
  exists_tls_iff : (∃ t, s.transport.security = .tls t) ↔ o.IsSecured
  /-- They are secured with what the options name. -/
  security : Secures files o s.transport.security
  /-- There is some time to open a connection. -/
  dialTimeout : s.transport.dialTimeout = o.dialTimeout ∧ 0 < s.transport.dialTimeout
  /-- Connections are checked from time to time, if at all. -/
  keepalive : IsTime o.keepalive s.transport.keepalive
  /-- Streams have some time, if it is limited. -/
  duration : IsTime o.streamDuration s.limits.duration
  /-- Calls have some time, if it is limited. -/
  timeout : IsTime o.timeout s.timeout
  /-- The pairs of the metadata, in order. -/
  metadata : List.Forall₂ IsPair o.metadata s.metadata

theorem checks_ofOptions (files : Files) (o : Options) :
    Checks (requirements files o) (Follows files o) (Settings.ofOptions files o) := by
  have hhost : (∃ c ∈ o.host.toList, Text.isBlank c = false) ↔
      ¬ (Text.trimChars o.host.toList).isEmpty = true := by
    rw [List.isEmpty_iff, trimChars_eq_nil_iff]
    simp
  rw [Settings.ofOptions, requirements]
  refine (checks_readSource o).bind fun source _ ↦ ?_
  refine .guard hhost fun _ ↦ .guard Iff.rfl fun hdial ↦ ?_
  refine (checks_readSchema o).bind fun schema _ ↦ ?_
  refine (checks_readSecurity files o).bind fun security hsecurity ↦ ?_
  refine (Checks.mapM checks_parseMetadata o.metadata).bind_pure fun metadata hmetadata ↦ ?_
  exact {
    exists_tls_iff := hsecurity.exists_tls_iff
    security := hsecurity
    dialTimeout := ⟨rfl, Nat.pos_of_ne_zero hdial⟩
    keepalive := isTime_positive o.keepalive
    duration := isTime_positive o.streamDuration
    timeout := isTime_positive o.timeout
    metadata := hmetadata }

/-- **Which options have settings.** For all options, whatever files there are.

There are settings just if all requirements are met. If some are not, then what is reported is said
by the first of them that is not met. Settings that there are follow the options: connections are
secured just if it is said so or a certificate is given, times are positive, and the metadata has
the pairs in their order. -/
theorem settings_of_options (files : Files) (o : Options) :
    ((∃ s, Settings.ofOptions files o = .ok s) ↔ ∀ r ∈ requirements files o, r.Holds) ∧
    (∀ f, Settings.ofOptions files o = .error f ↔ FirstUnmet (requirements files o) f) ∧
    ∀ s, Settings.ofOptions files o = .ok s → Follows files o s := by
  have hchecks := checks_ofOptions files o
  exact ⟨hchecks.exists_ok_iff, fun f ↦ hchecks.eq_error_iff, fun s hs ↦ hchecks.kind hs⟩

/-- A call to a blank host, without any time to connect to it, and with a pair that has no colon. -/
def blankHost : Options where
  host := " "
  call := some "helloworld.Greeter/SayHello"
  dialTimeout := 0
  metadata := ["x-trace"]

/-- A secured call with a pair that has two colons. -/
def traced : Options where
  call := some "helloworld.Greeter/SayHello"
  tls := true
  metadata := ["X-Trace: t:1 "]

/-- Of three requirements that are not met, the first is reported. With all of them met there are
settings, and the second colon of the pair is kept. -/
theorem settings_of_options_traced :
    Settings.ofOptions {} blankHost = .error (.note "RPCPROBE_HOST must not be empty") ∧
      ∃ s, Settings.ofOptions {} traced = .ok s ∧ (∃ t, s.transport.security = .tls t) ∧
        s.metadata = [("x-trace", "t:1")] := by
  constructor
  · obtain ⟨-, herror, -⟩ := settings_of_options {} blankHost
    refine (herror _).2 (.of_append ?_ (.here ?_))
    · simp [sourceRequirements, blankHost]
    · simp [hostRequirement, blankHost, Text.isBlank]
  · obtain ⟨-, -, hfollows⟩ := settings_of_options {} traced
    have hmetadata : ((Settings.ofOptions {} traced).toOption.map (·.metadata)) =
        some [("x-trace", "t:1")] := by decide +kernel
    obtain ⟨s, hs, hmetadata⟩ := Option.map_eq_some_iff.1 hmetadata
    have hok := toOption_eq_some_iff.1 hs
    exact ⟨s, hok, (hfollows s hok).exists_tls_iff.2 (.inl rfl), hmetadata⟩

end CallCheck.Probe
