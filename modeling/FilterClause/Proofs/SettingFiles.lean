import FilterClause.Proofs.WrittenPairs
import FilterClause.Settings.Sources

/-!
# What a file sets

The settings other than the field map are named by keys (`Key`), each with one spelling in documents
and one in the environment, so that what is proved of one key holds of all of them.

A document defines settings when nothing in it is of the wrong kind (`DefinesSettings`), and a file
loads when it can be read as such a document (`Loads`). The settings of a file that loads are those that
its entries spell: under each key the text that stands there (`Sets`), and for each field the text in
the table of fields (`Maps`). That is all there is to them (`sets_iff`, `maps_iff`); a file that does
not load has none.
-/

namespace FilterClause.Settings

open Toml

/-! ## Keys -/

/-- The settings that have one value. -/
inductive Key
  | document
  | vertex
  | collection
  | logLevel
  | logDirectory
  deriving DecidableEq, Repr

namespace Key

/-- The name of the setting in a document. -/
def entry : Key → String
  | .document => "doc_var"
  | .vertex => "vert_var"
  | .collection => "collection"
  | .logLevel => "log_level"
  | .logDirectory => "log_dir"

/-- The variable of the environment that overrides the setting. -/
def variableName : Key → String
  | .document => "AQLFILTER_DOC_VAR"
  | .vertex => "AQLFILTER_VERT_VAR"
  | .collection => "AQLFILTER_COLLECTION"
  | .logLevel => "AQLFILTER_LOG_LEVEL"
  | .logDirectory => "AQLFILTER_LOG_DIR"

end Key

/-- The value of a setting. -/
def value? (s : Settings) : Key → Option String
  | .document => s.document
  | .vertex => s.vertex
  | .collection => s.collection
  | .logLevel => s.logLevel
  | .logDirectory => s.logDirectory

@[simp] theorem value?_empty (key : Key) : empty.value? key = none := by
  cases key <;> rfl

@[simp] theorem value?_fillFrom (s other : Settings) (key : Key) :
    (s.fillFrom other).value? key = (s.value? key).or (other.value? key) := by
  cases key <;> rfl

@[simp] theorem value?_override (s : Settings) (env : Environment) (key : Key) :
    (s.override env).value? key = (env key.variableName).or (s.value? key) := by
  cases key <;> rfl

/-! ## Documents -/

/-- A document defines settings: what stands under a key is a text, and what stands for the fields is a
table of texts, or a date or time, which passes for one. -/
structure DefinesSettings (entries : Entries) : Prop where
  value : ∀ key : Key, ∀ node, entries.lookup key.entry = some node → ∃ v, node = .text v
  fields : ∀ node, entries.lookup "fields" = some node →
    (∃ kind sub, node = .table kind sub ∧ ∀ e ∈ sub, ∃ v, e.2 = .text v) ∨
      ∃ moment, node = .moment moment

/-- A document maps a field to a path: the last entry for the field in the table of fields is the path.
A date or time maps the one field that is kept for it to its spelling. -/
def MapsField (entries : Entries) (field path : String) : Prop :=
  (∃ kind sub, entries.lookup "fields" = some (.table kind sub) ∧
    sub.reverse.lookup field = some (.text path)) ∨
  ∃ moment, entries.lookup "fields" = some (.moment moment) ∧ field = momentKey ∧ path = moment.text

theorem text?_eq_ok_iff {entries : Entries} {key : String} {v : Option String} :
    text? entries key = .ok v ↔ entries.lookup key = v.map .text := by
  unfold text?
  split
  · next h => cases v <;> simp [h]
  · next value h => cases v <;> simp [h]
  · next node hne h =>
    cases v with
    | none => simp [h]
    | some value => simpa [h] using hne value

/-- The entry of a table of texts. -/
def textEntry (pair : String × String) : String × Node :=
  (pair.1, .text pair.2)

theorem textPairs?_eq_some_iff {sub : Entries} {pairs : List (String × String)} :
    textPairs? sub = some pairs ↔ pairs.map textEntry = sub := by
  induction sub generalizing pairs with
  | nil => cases pairs <;> simp [textPairs?]
  | cons e sub ih =>
    obtain ⟨key, node⟩ := e
    cases node <;> cases pairs <;>
      simp [textPairs?, textEntry, ih, Prod.ext_iff, and_comm, @eq_comm String]

theorem exists_textPairs?_eq_some_iff {sub : Entries} :
    (∃ pairs, textPairs? sub = some pairs) ↔ ∀ e ∈ sub, ∃ v, e.2 = .text v := by
  have hentry : ∀ e : String × Node, e ∈ Set.range textEntry ↔ ∃ v, e.2 = .text v := by
    rintro ⟨key, node⟩
    simp [textEntry, eq_comm]
  calc (∃ pairs, textPairs? sub = some pairs)
      ↔ sub ∈ Set.range (List.map textEntry) := by simp only [textPairs?_eq_some_iff, Set.mem_range]
    _ ↔ ∀ e ∈ sub, ∃ v, e.2 = .text v := by
        simp only [Set.range_list_map, hentry]
        rfl

theorem lookup_map_textEntry (pairs : List (String × String)) (field : String) :
    (pairs.map textEntry).lookup field = (pairs.lookup field).map .text := by
  induction pairs with
  | nil => rfl
  | cons pair pairs ih =>
    rw [List.map_cons, textEntry, List.lookup_cons, List.lookup_cons, ih]
    split <;> rfl

/-- The paths of the table of fields are those that the document maps. -/
theorem get?_fields?_eq_some_iff {entries : Entries} {m : FieldMap} (hm : fields? entries = .ok m)
    (field path : String) : m.get? field = some path ↔ MapsField entries field path := by
  unfold fields? at hm
  split at hm
  · next h =>
    cases hm
    simp [MapsField, h]
  · next kind sub h =>
    split at hm
    · next pairs hpairs =>
      cases hm
      obtain rfl := textPairs?_eq_some_iff.1 hpairs
      -- the map keeps the last of several pairs for a field, so the table is searched from its end
      rw [FieldMap.get?_ofList]
      simp [MapsField, h, ← List.map_reverse, lookup_map_textEntry]
    · cases hm
  · next moment h =>
    cases hm
    rw [FieldMap.get?_ofList]
    by_cases hf : field = momentKey
    · simp only [MapsField, h, hf, List.reverse_singleton, List.lookup_cons_self]
      simp [@eq_comm _ path]
    · simp [MapsField, h, hf]
  · cases hm

theorem exists_fields?_eq_ok_iff {entries : Entries} :
    (∃ m, fields? entries = .ok m) ↔ ∀ node, entries.lookup "fields" = some node →
      (∃ kind sub, node = .table kind sub ∧ ∀ e ∈ sub, ∃ v, e.2 = .text v) ∨
        ∃ moment, node = .moment moment := by
  unfold fields?
  split
  · next h => simp [h]
  · next kind sub h =>
    rw [h]
    cases hpairs : textPairs? sub with
    | some pairs =>
      have htexts := exists_textPairs?_eq_some_iff.1 ⟨pairs, hpairs⟩
      simpa using htexts
    | none =>
      have htexts : ¬ ∀ e ∈ sub, ∃ v, e.2 = .text v := fun h => by
        simpa [hpairs] using exists_textPairs?_eq_some_iff.2 h
      simpa using htexts
  · next h => simp [h]
  · next node htable hmoment h =>
    simp only [h, reduceCtorEq, exists_false, false_iff, Option.some.injEq, forall_eq']
    rintro (⟨kind, sub, rfl, -⟩ | ⟨moment, rfl⟩)
    · exact htable kind sub rfl
    · exact hmoment moment rfl

theorem exists_text?_eq_ok_iff {entries : Entries} {key : String} :
    (∃ v, text? entries key = .ok v) ↔
      ∀ node, entries.lookup key = some node → ∃ v, node = .text v := by
  simp only [text?_eq_ok_iff]
  cases entries.lookup key with
  | none => exact ⟨fun _ _ h => (nomatch h), fun _ => ⟨none, rfl⟩⟩
  | some node =>
    constructor
    · rintro ⟨v, hv⟩ _ ⟨⟩
      obtain ⟨value, -, rfl⟩ := Option.map_eq_some_iff.1 hv.symm
      exact ⟨value, rfl⟩
    · intro h
      obtain ⟨value, rfl⟩ := h node rfl
      exact ⟨some value, rfl⟩

theorem bind_eq_ok_iff {ε α β : Type} {x : Except ε α} {f : α → Except ε β} {b : β} :
    x >>= f = .ok b ↔ ∃ a, x = .ok a ∧ f a = .ok b := by
  cases x <;> simp [bind, Except.bind]

theorem ofEntries?_eq_ok_iff {entries : Entries} {s : Settings} :
    ofEntries? entries = .ok s ↔
      (∀ key : Key, text? entries key.entry = .ok (s.value? key)) ∧ fields? entries = .ok s.fields := by
  simp only [ofEntries?, bind_eq_ok_iff]
  constructor
  · rintro ⟨_, hdocument, _, hvertex, _, hcollection, _, hlevel, _, hdirectory, _, hfields, ⟨⟩⟩
    exact ⟨fun key => by cases key <;> assumption, hfields⟩
  · rintro ⟨hvalue, hfields⟩
    exact ⟨_, hvalue .document, _, hvalue .vertex, _, hvalue .collection, _, hvalue .logLevel, _,
      hvalue .logDirectory, _, hfields, rfl⟩

/-- The values of settings are the texts that stand under their keys. -/
theorem value?_ofEntries?_eq_some_iff {entries : Entries} {s : Settings}
    (hs : ofEntries? entries = .ok s) (key : Key) (v : String) :
    s.value? key = some v ↔ entries.lookup key.entry = some (.text v) := by
  rw [text?_eq_ok_iff.1 ((ofEntries?_eq_ok_iff.1 hs).1 key)]
  cases s.value? key <;> simp

theorem get?_ofEntries?_eq_some_iff {entries : Entries} {s : Settings}
    (hs : ofEntries? entries = .ok s) (field path : String) :
    s.fields.get? field = some path ↔ MapsField entries field path :=
  get?_fields?_eq_some_iff (ofEntries?_eq_ok_iff.1 hs).2 field path

theorem exists_ofEntries?_eq_ok_iff {entries : Entries} :
    (∃ s, ofEntries? entries = .ok s) ↔ DefinesSettings entries := by
  constructor
  · rintro ⟨s, hs⟩
    obtain ⟨hvalue, hfields⟩ := ofEntries?_eq_ok_iff.1 hs
    exact ⟨fun key => exists_text?_eq_ok_iff.1 ⟨_, hvalue key⟩, exists_fields?_eq_ok_iff.1 ⟨_, hfields⟩⟩
  · rintro ⟨hvalue, hfields⟩
    -- no key keeps another one from being read, so each has a value of its own
    choose value hvalue using fun key => exists_text?_eq_ok_iff.2 (hvalue key)
    obtain ⟨fields, hfields⟩ := exists_fields?_eq_ok_iff.2 hfields
    exact ⟨⟨value .document, value .vertex, value .collection, value .logLevel, value .logDirectory,
      fields⟩, ofEntries?_eq_ok_iff.2 ⟨fun key => by cases key <;> exact hvalue _, hfields⟩⟩

/-! ## Files -/

/-- A file loads: it can be read, and its text is a document that defines settings. -/
def Loads (read : Reader) (path : String) (entries : Entries) : Prop :=
  ∃ text, read path = .ok text ∧ Toml.read text = .ok entries ∧ DefinesSettings entries

/-- A file sets a setting to a value. -/
def Sets (read : Reader) (key : Key) (path v : String) : Prop :=
  ∃ entries, Loads read path entries ∧ entries.lookup key.entry = some (.text v)

/-- A file maps a field to a path. -/
def Maps (read : Reader) (field file path : String) : Prop :=
  ∃ entries, Loads read file entries ∧ MapsField entries field path

theorem Loads.definesSettings {read : Reader} {path : String} {entries : Entries}
    (h : Loads read path entries) : DefinesSettings entries := by
  obtain ⟨_, _, _, hdefines⟩ := h
  exact hdefines

theorem ofFile?_eq_ok_iff {read : Reader} {path : String} {s : Settings} :
    ofFile? read path = .ok s ↔
      ∃ entries, Loads read path entries ∧ ofEntries? entries = .ok s := by
  constructor
  · intro h
    unfold ofFile? at h
    split at h
    · cases h
    · next text htext =>
      unfold ofToml? at h
      split at h
      · cases h
      · next entries hentries =>
        exact ⟨entries, ⟨text, htext, hentries, exists_ofEntries?_eq_ok_iff.1 ⟨s, h⟩⟩, h⟩
  · rintro ⟨entries, ⟨text, htext, hentries, -⟩, hs⟩
    simpa [ofFile?, htext, ofToml?, hentries] using hs

theorem exists_ofFile?_eq_ok_iff {read : Reader} {path : String} :
    (∃ s, ofFile? read path = .ok s) ↔ ∃ entries, Loads read path entries := by
  simp only [ofFile?_eq_ok_iff]
  constructor
  · rintro ⟨s, entries, hloads, -⟩
    exact ⟨entries, hloads⟩
  · rintro ⟨entries, hloads⟩
    obtain ⟨s, hs⟩ := exists_ofEntries?_eq_ok_iff.2 hloads.definesSettings
    exact ⟨s, entries, hloads, hs⟩

/-- The settings of a file, if it loads. -/
def loaded? (read : Reader) (path : String) : Option Settings :=
  (ofFile? read path).toOption

theorem loaded?_eq_some_iff {read : Reader} {path : String} {s : Settings} :
    loaded? read path = some s ↔ ofFile? read path = .ok s := by
  rw [loaded?]
  cases ofFile? read path <;> simp [Except.toOption]

/-- What a file that loads spells is what its settings hold. -/
theorem exists_loads_and_iff {get : Settings → Option String} {v : String} {spells : Entries → Prop}
    (hget : ∀ entries s, ofEntries? entries = .ok s → (get s = some v ↔ spells entries))
    (read : Reader) (path : String) :
    (∃ entries, Loads read path entries ∧ spells entries) ↔ (loaded? read path).bind get = some v := by
  simp only [Option.bind_eq_some_iff, loaded?_eq_some_iff, ofFile?_eq_ok_iff]
  constructor
  · rintro ⟨entries, hloads, hspells⟩
    obtain ⟨s, hs⟩ := exists_ofEntries?_eq_ok_iff.2 hloads.definesSettings
    exact ⟨s, ⟨entries, hloads, hs⟩, (hget entries s hs).2 hspells⟩
  · rintro ⟨s, ⟨entries, hloads, hs⟩, hv⟩
    exact ⟨entries, hloads, (hget entries s hs).1 hv⟩

theorem sets_iff (read : Reader) (key : Key) (path v : String) :
    Sets read key path v ↔ (loaded? read path).bind (·.value? key) = some v :=
  exists_loads_and_iff (fun _ _ hs => value?_ofEntries?_eq_some_iff hs key v) read path

theorem maps_iff (read : Reader) (field file path : String) :
    Maps read field file path ↔ (loaded? read file).bind (·.fields.get? field) = some path :=
  exists_loads_and_iff (fun _ _ hs => get?_ofEntries?_eq_some_iff hs field path) read file

end FilterClause.Settings
