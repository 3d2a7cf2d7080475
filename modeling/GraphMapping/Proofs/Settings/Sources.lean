import GraphMapping.Proofs.Settings.Members
import GraphMapping.Settings

/-!
# Where settings come from

A setting is what its variable sets it to if that is set, else what the file sets it to, else at its
default.  Main statement: settings hold all values in force, they are refused only because of one of
these, and what a file sets is without consequence where a variable is set.
-/

namespace GraphMapping

namespace Setting

/-- The variable of a setting. -/
def variableName : Setting → String
  | .uri => "NEO4J_URI"
  | .user => "NEO4J_USER"
  | .password => "NEO4J_PASSWORD"
  | .databases => "NEO4J_DATABASES"
  | .maxConnections => "NEO4J_MAX_CONNECTIONS"
  | .primaryKey => "OGM_PRIMARY_KEY"
  | .schemaPolicy => "OGM_INDEX_STRATEGY"
  | .defaultDepth => "OGM_DEFAULT_DEPTH"
  | .timeout => "OGM_QUERY_TIMEOUT_SECS"

/-- The number in the text of a variable. -/
def readNumber (name text : String) : Except SettingsError Nat :=
  match readNatural (Text.trim text.toList) with
  | .ok n => .ok n
  | .error fault => .error ⟨"Invalid " ++ name, .number fault⟩

/-- What the text of its variable sets a setting to. -/
def readVariable (text : String) : (s : Setting) → Except SettingsError s.Value
  | .uri | .user | .password | .primaryKey => .ok text
  | .databases => .ok (Settings.nameList text)
  | .maxConnections => readNumber "NEO4J_MAX_CONNECTIONS" text
  | .schemaPolicy => Settings.inContext "Invalid OGM_INDEX_STRATEGY" (SchemaPolicy.ofName text)
  | .defaultDepth => readNumber "OGM_DEFAULT_DEPTH" text
  | .timeout => readNumber "OGM_QUERY_TIMEOUT_SECS" text

/-- What a setting is set to: by its variable if that is set, else by the file, else by default. -/
def inForce (env : String → Option String) (given : (s : Setting) → Option s.Value) (s : Setting) :
    Except SettingsError s.Value :=
  match env s.variableName with
  | some text => s.readVariable text
  | none => .ok ((given s).getD (FileSettings.standard.value s))

/-- The check of what a setting is set to. -/
def check (keys : Nat → String) : (s : Setting) → s.Value → Except SettingsError Unit
  | .primaryKey, name =>
      (Settings.inContext "Invalid mapping.primary_key" (KeyStrategy.ofName keys name)).map fun _ => ()
  | .defaultDepth, depth => Settings.inContext "Invalid mapping.default_depth" (checkDepth depth)
  | _, _ => .ok ()

end Setting

namespace Settings

variable {keys : Nat → String} {env : String → Option String} {files files' : String → SettingsFile}
  {path path' : Option String} {file file' : FileSettings} {c : Settings}

/-- Settings hold what a setting is set to: the number of seconds as a span of time, and the strategy that
has the name. -/
def Holds (keys : Nat → String) (c : Settings) : (s : Setting) → s.Value → Prop
  | .uri, uri => c.uri = uri
  | .user, user => c.user = user
  | .password, password => c.password = password
  | .databases, names => c.databases = names
  | .maxConnections, n => c.maxConnections = n
  | .primaryKey, name => KeyStrategy.ofName keys name = .ok c.strategy
  | .schemaPolicy, policy => c.schemaPolicy = policy
  | .defaultDepth, depth => checkDepth depth = .ok () ∧ c.defaultDepth = depth
  | .timeout, seconds => c.timeout = .ofSeconds seconds

/-- What the file sets a setting to, if there is one and it does. -/
def given (files : String → SettingsFile) (path : Option String) (s : Setting) : Option s.Value :=
  match files (path.getD standardPath) with
  | .document d => d.value? s
  | .unreadable _ => none

/-- What is loaded is what is found at the path, but for a standard file that is missing. -/
theorem load_cases (files : String → SettingsFile) (path : Option String) :
    load files path = loadFile (path.getD standardPath) (files (path.getD standardPath)) ∨
      load files path = .ok .standard ∧ files (path.getD standardPath) = .unreadable .missing := by
  cases path with
  | some path => exact .inl rfl
  | none =>
      unfold load
      rw [Option.getD_none]
      dsimp only
      split
      · next hMissing => exact .inr ⟨rfl, hMissing⟩
      · exact .inl rfl

/-- What was loaded is what the file sets, completed by defaults. -/
theorem load_value (h : load files path = .ok file) (s : Setting) :
    file.value s = (given files path s).getD (FileSettings.standard.value s) := by
  unfold given
  obtain hLoad | ⟨hLoad, hMissing⟩ := load_cases files path
  · rw [hLoad] at h
    generalize files (path.getD standardPath) = found at h ⊢
    cases found with
    | unreadable fault => cases h
    | document d =>
        unfold loadFile at h
        dsimp only at h ⊢
        split at h
        · next hDocument =>
            cases h
            exact FileSettings.value_eq_getD hDocument s
        · cases h
  · rw [hLoad] at h
    cases h
    rw [hMissing]
    rfl

/-! ## Variables that override a file -/

theorem inForce_value (h : load files path = .ok file) (s : Setting) :
    s.inForce env (given files path) =
      match env s.variableName with
      | some text => s.readVariable text
      | none => .ok (file.value s) := by
  unfold Setting.inForce
  rw [load_value h s]

theorem inForce_eq (env : String → Option String) (h : load files path = .ok file) (s : Setting)
    {x : Option String → Except SettingsError s.Value} (hSet : ∀ text, x (some text) = s.readVariable text)
    (hUnset : x none = .ok (file.value s)) :
    s.inForce env (given files path) = x (env s.variableName) := by
  rw [inForce_value h]
  cases env s.variableName with
  | some text => exact (hSet text).symm
  | none => exact hUnset.symm

theorem inForce_text (env : String → Option String) (h : load files path = .ok file) :
    Setting.inForce env (given files path) .uri = .ok ((env "NEO4J_URI").getD file.uri) ∧
    Setting.inForce env (given files path) .user = .ok ((env "NEO4J_USER").getD file.user) ∧
    Setting.inForce env (given files path) .password = .ok ((env "NEO4J_PASSWORD").getD file.password) ∧
    Setting.inForce env (given files path) .primaryKey =
      .ok ((env "OGM_PRIMARY_KEY").getD file.primaryKey) :=
  ⟨inForce_eq env h .uri (x := fun text? => .ok (text?.getD file.uri)) (fun _ => rfl) rfl,
    inForce_eq env h .user (x := fun text? => .ok (text?.getD file.user)) (fun _ => rfl) rfl,
    inForce_eq env h .password (x := fun text? => .ok (text?.getD file.password)) (fun _ => rfl) rfl,
    inForce_eq env h .primaryKey (x := fun text? => .ok (text?.getD file.primaryKey)) (fun _ => rfl) rfl⟩

theorem inForce_number (env : String → Option String) (h : load files path = .ok file) :
    Setting.inForce env (given files path) .maxConnections =
      number env "NEO4J_MAX_CONNECTIONS" file.maxConnections ∧
    Setting.inForce env (given files path) .defaultDepth =
      number env "OGM_DEFAULT_DEPTH" file.defaultDepth ∧
    Setting.inForce env (given files path) .timeout =
      number env "OGM_QUERY_TIMEOUT_SECS" file.timeoutSeconds :=
  ⟨inForce_eq env h .maxConnections (x := fun text? => number (fun _ => text?) _ file.maxConnections)
      (fun _ => rfl) rfl,
    inForce_eq env h .defaultDepth (x := fun text? => number (fun _ => text?) _ file.defaultDepth)
      (fun _ => rfl) rfl,
    inForce_eq env h .timeout (x := fun text? => number (fun _ => text?) _ file.timeoutSeconds)
      (fun _ => rfl) rfl⟩

/-- Settings come from the values in force alone. -/
theorem ofSources_eq (h : load files path = .ok file) {force : (s : Setting) → Except SettingsError s.Value}
    (hForce : ∀ s, s.inForce env (given files path) = force s) :
    ofSources keys env files path = (do
      let name ← force .primaryKey
      let strategy ← inContext "Invalid mapping.primary_key" (KeyStrategy.ofName keys name)
      let schemaPolicy ← force .schemaPolicy
      let defaultDepth ← force .defaultDepth
      inContext "Invalid mapping.default_depth" (checkDepth defaultDepth)
      let seconds ← force .timeout
      let maxConnections ← force .maxConnections
      let uri ← force .uri
      let user ← force .user
      let password ← force .password
      let databases ← force .databases
      return {
        uri, user, password, databases, maxConnections, strategy, schemaPolicy, defaultDepth
        timeout := .ofSeconds seconds }) := by
  obtain ⟨hUri, hUser, hPassword, hKey⟩ := inForce_text env h
  obtain ⟨hMax, hDepth, hTimeout⟩ := inForce_number env h
  have hNames := inForce_eq env h .databases
    (x := fun text? => .ok (match text? with | some text => nameList text | none => file.databases))
    (fun _ => rfl) rfl
  have hPolicy := inForce_eq env h .schemaPolicy
    (x := fun text? => match text? with
      | some text => inContext "Invalid OGM_INDEX_STRATEGY" (SchemaPolicy.ofName text)
      | none => .ok file.schemaPolicy)
    (fun _ => rfl) rfl
  simp only [← hForce, hUri, hUser, hPassword, hKey, hMax, hDepth, hTimeout, hPolicy, hNames,
    Setting.variableName]
  unfold ofSources
  rw [h]
  change override keys env file = _
  unfold override
  -- What follows the policy is the same for a policy from the variable and for one from the file.
  cases env "OGM_INDEX_STRATEGY" <;> rfl

theorem inContext_eq_ok {α : Type} {context : String} {x : Except Error α} {a : α} :
    inContext context x = .ok a ↔ x = .ok a := by
  cases x <;> simp [inContext]

/-- Settings are there just if they hold every value in force. -/
theorem ofSources_eq_ok (h : load files path = .ok file) :
    ofSources keys env files path = .ok c ↔
      ∀ s, ∃ v, s.inForce env (given files path) = .ok v ∧ c.Holds keys s v := by
  rw [ofSources_eq h fun _ => rfl]
  constructor
  · intro hRun
    obtain ⟨name, hName, hRun⟩ := bind_eq_ok.1 hRun
    obtain ⟨strategy, hStrategy, hRun⟩ := bind_eq_ok.1 hRun
    obtain ⟨policy, hPolicy, hRun⟩ := bind_eq_ok.1 hRun
    obtain ⟨depth, hDepth, hRun⟩ := bind_eq_ok.1 hRun
    obtain ⟨_, hCheck, hRun⟩ := bind_eq_ok.1 hRun
    obtain ⟨seconds, hSeconds, hRun⟩ := bind_eq_ok.1 hRun
    obtain ⟨max, hMax, hRun⟩ := bind_eq_ok.1 hRun
    obtain ⟨uri, hUri, hRun⟩ := bind_eq_ok.1 hRun
    obtain ⟨user, hUser, hRun⟩ := bind_eq_ok.1 hRun
    obtain ⟨password, hPassword, hRun⟩ := bind_eq_ok.1 hRun
    obtain ⟨names, hNames, hRun⟩ := bind_eq_ok.1 hRun
    cases hRun
    intro s
    cases s with
    | uri => exact ⟨uri, hUri, rfl⟩
    | user => exact ⟨user, hUser, rfl⟩
    | password => exact ⟨password, hPassword, rfl⟩
    | databases => exact ⟨names, hNames, rfl⟩
    | maxConnections => exact ⟨max, hMax, rfl⟩
    | primaryKey => exact ⟨name, hName, inContext_eq_ok.1 hStrategy⟩
    | schemaPolicy => exact ⟨policy, hPolicy, rfl⟩
    | defaultDepth => exact ⟨depth, hDepth, inContext_eq_ok.1 hCheck, rfl⟩
    | timeout => exact ⟨seconds, hSeconds, rfl⟩
  · intro hHolds
    obtain ⟨name, hName, hStrategy⟩ := hHolds .primaryKey
    obtain ⟨policy, hPolicy, rfl⟩ := hHolds .schemaPolicy
    obtain ⟨depth, hDepth, hCheck, rfl⟩ := hHolds .defaultDepth
    obtain ⟨seconds, hSeconds, hTimeout⟩ := hHolds .timeout
    obtain ⟨max, hMax, rfl⟩ := hHolds .maxConnections
    obtain ⟨uri, hUri, rfl⟩ := hHolds .uri
    obtain ⟨user, hUser, rfl⟩ := hHolds .user
    obtain ⟨password, hPassword, rfl⟩ := hHolds .password
    obtain ⟨names, hNames, rfl⟩ := hHolds .databases
    refine bind_eq_ok.2 ⟨name, hName, bind_eq_ok.2 ⟨c.strategy, inContext_eq_ok.2 hStrategy, ?_⟩⟩
    refine bind_eq_ok.2 ⟨_, hPolicy, bind_eq_ok.2 ⟨_, hDepth, ?_⟩⟩
    refine bind_eq_ok.2 ⟨(), inContext_eq_ok.2 hCheck, bind_eq_ok.2 ⟨seconds, hSeconds, ?_⟩⟩
    refine bind_eq_ok.2 ⟨_, hMax, bind_eq_ok.2 ⟨_, hUri, bind_eq_ok.2 ⟨_, hUser, ?_⟩⟩⟩
    refine bind_eq_ok.2 ⟨_, hPassword, bind_eq_ok.2 ⟨_, hNames, ?_⟩⟩
    rw [← hTimeout]
    rfl

/-- There are no settings only because of a value in force: it cannot be read, or it fails its check. -/
theorem ofSources_eq_error {e : SettingsError} (h : load files path = .ok file)
    (hRun : ofSources keys env files path = .error e) :
    ∃ s : Setting, (s.inForce env (given files path) >>= s.check keys) = .error e := by
  rw [ofSources_eq h fun _ => rfl] at hRun
  obtain hName | ⟨name, hName, hRun⟩ := bind_eq_error.1 hRun
  · exact ⟨.primaryKey, bind_eq_error.2 (.inl hName)⟩
  obtain hStrategy | ⟨strategy, -, hRun⟩ := bind_eq_error.1 hRun
  · refine ⟨.primaryKey, bind_eq_error.2 (.inr ⟨name, hName, ?_⟩)⟩
    change (inContext _ _).map _ = _
    rw [hStrategy]
    rfl
  obtain hPolicy | ⟨policy, -, hRun⟩ := bind_eq_error.1 hRun
  · exact ⟨.schemaPolicy, bind_eq_error.2 (.inl hPolicy)⟩
  obtain hDepth | ⟨depth, hDepth, hRun⟩ := bind_eq_error.1 hRun
  · exact ⟨.defaultDepth, bind_eq_error.2 (.inl hDepth)⟩
  obtain hCheck | ⟨_, -, hRun⟩ := bind_eq_error.1 hRun
  · exact ⟨.defaultDepth, bind_eq_error.2 (.inr ⟨depth, hDepth, hCheck⟩)⟩
  obtain hSeconds | ⟨seconds, -, hRun⟩ := bind_eq_error.1 hRun
  · exact ⟨.timeout, bind_eq_error.2 (.inl hSeconds)⟩
  obtain hMax | ⟨max, -, hRun⟩ := bind_eq_error.1 hRun
  · exact ⟨.maxConnections, bind_eq_error.2 (.inl hMax)⟩
  obtain hUri | ⟨uri, -, hRun⟩ := bind_eq_error.1 hRun
  · exact ⟨.uri, bind_eq_error.2 (.inl hUri)⟩
  obtain hUser | ⟨user, -, hRun⟩ := bind_eq_error.1 hRun
  · exact ⟨.user, bind_eq_error.2 (.inl hUser)⟩
  obtain hPassword | ⟨password, -, hRun⟩ := bind_eq_error.1 hRun
  · exact ⟨.password, bind_eq_error.2 (.inl hPassword)⟩
  obtain hNames | ⟨names, -, hRun⟩ := bind_eq_error.1 hRun
  · exact ⟨.databases, bind_eq_error.2 (.inl hNames)⟩
  cases hRun

theorem inForce_congr {given given' : (s : Setting) → Option s.Value}
    (h : ∀ s : Setting, env s.variableName = none → given' s = given s) (s : Setting) :
    s.inForce env given' = s.inForce env given := by
  unfold Setting.inForce
  cases hSet : env s.variableName with
  | some text => rfl
  | none => rw [h s hSet]

/-- Variables override a file that can be taken up: settings are there just if they hold every value in
force, they are refused only because of such a value, and files that differ only in what variables set
come to the same.  A file that cannot be taken up is refused whatever the variables are. -/
theorem variables_override_file (keys : Nat → String) (env : String → Option String)
    (files : String → SettingsFile) (path : Option String) :
    (∀ file, load files path = .ok file →
      (∀ c, ofSources keys env files path = .ok c ↔
        ∀ s : Setting, ∃ v, s.inForce env (given files path) = .ok v ∧ c.Holds keys s v) ∧
      (∀ e, ofSources keys env files path = .error e →
        ∃ s : Setting, (s.inForce env (given files path) >>= s.check keys) = .error e) ∧
      ∀ files' path' file', load files' path' = .ok file' →
        (∀ s : Setting, env s.variableName = none → given files' path' s = given files path s) →
          ofSources keys env files' path' = ofSources keys env files path) ∧
    ∀ e, load files path = .error e → ofSources keys env files path = .error e := by
  refine ⟨fun file h => ⟨fun c => ofSources_eq_ok h, fun e => ofSources_eq_error h, ?_⟩, fun e h => ?_⟩
  · intro files' path' file' h' hSame
    rw [ofSources_eq h' (inForce_congr hSame), ofSources_eq h fun _ => rfl]
  · unfold ofSources
    rw [h]
    rfl

/-- A key strategy that does not exist is of no consequence where a variable names another one. -/
theorem unknown_strategy_overridden :
    let careless : String → SettingsFile := fun _ => .ofText (.ok "mapping:\n  primary_key: bad\n")
    let careful : String → SettingsFile := fun _ => .ofText (.ok "mapping:\n  primary_key: uuid\n")
    let native := fun name => if name = Setting.variableName .primaryKey then some "native" else none
    let keys := fun _ => ""
    let here := some "ogm.yaml"
    ofSources keys native careless here = ofSources keys native careful here ∧
      (ofSources keys native careless here).toOption.map (·.strategy.name) = some "native" ∧
      (∃ s : Setting, (s.inForce (fun _ => none) (given careless here) >>= s.check keys) =
        .error ⟨"Invalid mapping.primary_key",
          .error (.configuration "unknown primary key strategy 'bad'")⟩) ∧
      ofSources keys native (fun _ => .unreadable .missing) here =
        .error ⟨"Failed to read ogm.yaml", .file .missing⟩ := by
  intro careless careful native keys here
  have hCareful : load careful here = .ok .standard := toOption_eq_some.1 (by decide +kernel)
  have hCareless : load careless here = .ok { FileSettings.standard with primaryKey := "bad" } :=
    toOption_eq_some.1 (by decide +kernel)
  refine ⟨?_, ?_, ?_, ?_⟩
  · refine ((variables_override_file keys native careful here).1 _ hCareful).2.2 careless here _ hCareless ?_
    decide +kernel
  · decide +kernel
  · refine ((variables_override_file keys (fun _ => none) careless here).1 _ hCareless).2.1 _ ?_
    unfold ofSources
    rw [hCareless]
    rfl
  · exact (variables_override_file keys native _ here).2 _ rfl

/-- A variable is no help against a policy that the file does not name exactly: the whole file is taken up
before any variable is read. -/
theorem capital_policy_refused :
    let lower := Yaml.Document.ofText "mapping:\n  index_strategy: validate\n"
    let upper := Yaml.Document.ofText "mapping:\n  index_strategy: Validate\n"
    let ignoring := fun name => if name = Setting.variableName .schemaPolicy then some "ignore" else none
    let settings := fun d => ofSources (fun _ => "") ignoring (fun _ => .document d) (some "ogm.yaml")
    (lower.root.fault? = none ∧ lower.after = none) ∧ (upper.root.fault? = none ∧ upper.after = none) ∧
      (∀ s ≠ Setting.schemaPolicy, upper.value? s = lower.value? s) ∧
      (settings lower).toOption.map (·.schemaPolicy) = some .ignore ∧ (settings upper).toOption.isNone := by
  intro lower upper ignoring settings
  decide +kernel

end Settings

end GraphMapping
