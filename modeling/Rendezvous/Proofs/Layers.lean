import Mathlib.Data.List.Induction
import Rendezvous.Settings.Setting

/-!
# Settings come in layers

A tree of settings holds at most one value for each setting.  Laying a value over the tree changes
what it holds for one setting and for no other, whether it comes from a file, where it may stand in
the table of its group, or from a variable.  So what is read in the end is, for each setting by
itself, the value of its variable, or else that of the file, or else the default.

* `Holds`: a tree of settings that holds these values;
* `Holds.put`, `Holds.openGroup`, `Holds.putWithin`: one value, one table, one value in a table;
* `Holds.overDocument`, `Holds.overVariables`: a whole file and a whole environment;
* `Holds.read`: the settings in a tree;
* `settings_are_layered`: what is loaded, and when settings are refused.
-/

namespace Rendezvous

namespace Setting

theorem path_dotted (x : Setting) : Settings.path x.dotted = x.names.map .member := by
  cases x <;> rfl

theorem names_of_group?_eq_none {x : Setting} (h : x.group? = none) : x.names = [x.name] := by
  simp [names, h]

theorem names_of_group?_eq_some {x : Setting} {t : String} (h : x.group? = some t) :
    x.names = [t, x.name] := by
  simp [names, h]

/-- Two settings of one group, or of none, have different names. -/
theorem eq_of_name {x y : Setting} (hgroup : x.group? = y.group?) (hname : x.name = y.name) :
    x = y := by
  cases x <;> cases y <;> simp_all [group?, name]

/-- No setting has the name of a group. -/
theorem name_ne_group {x y : Setting} {t : String} (hx : x.group? = none)
    (hy : y.group? = some t) : x.name ≠ t := by
  cases x <;> cases y <;> simp_all [group?, name] <;> subst hy <;> decide

theorem within?_eq_some {t n : String} {x : Setting} (h : within? t n = some x) :
    x.group? = some t ∧ x.name = n := by
  simpa using List.find?_some h

theorem ofDotted?_eq_some {n : String} {x : Setting} (h : ofDotted? n = some x) :
    x.dotted = n := by
  simpa using List.find?_some h

theorem ofVariable?_eq_some {n : String} {x : Setting} (h : ofVariable? n = some x) :
    Text.small n = x.variableName := by
  simpa using List.find?_some h

/-- The name of a group leads to its table. -/
theorem path_group {x : Setting} {t : String} (h : x.group? = some t) :
    Settings.path t = [.member t] := by
  cases x <;> cases h <;> rfl

/-- The variable of a setting leads to the setting. -/
theorem variablePath?_eq {n : String} {x : Setting} (h : ofVariable? n = some x) :
    Settings.variablePath? n = some (x.names.map .member) := by
  rw [Settings.variablePath?, ofVariable?_eq_some h]
  cases x <;> rfl

end Setting

namespace Settings

theorem Members.find?_put (ms : Members) (name n : String) (t : Tree) :
    (ms.put name t).find? n = if name = n then some t else ms.find? n := by
  induction ms with
  | nil => rfl
  | cons m ms ih =>
    obtain ⟨m, old⟩ := m
    by_cases hm : m = name
    · by_cases hn : name = n <;> simp [Members.put, Members.find?, hm, hn]
    · rw [Members.put, if_neg hm, Members.find?, Members.find?, ih]
      split
      · rename_i hn
        rw [if_neg fun heq => hm (hn.trans heq.symm)]
      · rfl

theorem Members.put_put (ms : Members) (name : String) (old t : Tree) :
    (ms.put name old).put name t = ms.put name t := by
  induction ms with
  | nil => simp [Members.put]
  | cons m ms ih =>
    obtain ⟨m, older⟩ := m
    by_cases hm : m = name <;> simp [Members.put, hm, ih]

theorem over_scalar (origin : Origin) (v : Scalar) (old? : Option Tree) :
    (Tree.scalar origin v).over old? = .scalar origin v := by
  simp [Tree.over]

theorem variablePath?_of_foreign {name : String} (h : isOurs name = false) :
    variablePath? name = none := by
  have hprefix : variablePrefix.isPrefixOf (Text.small name).toList = false := h
  simp [variablePath?, hprefix]

/-- A member of a document that gives nothing but settings. -/
inductive Gives (name : String) : Toml.Value → List (Setting × Scalar) → Prop
  | single {x : Setting} {w : Toml.Value} {v : Scalar} :
      x.dotted = name → Scalar.ofToml? w = some v → Gives name w [(x, v)]
  | group {x : Setting} {members : List (String × Toml.Value)} {given : List (Setting × Scalar)} :
      x.group? = some name → givenInGroup? name members = some given →
        Gives name (.table members) given

theorem gives_of_givenAt? {name : String} {w : Toml.Value} {given : List (Setting × Scalar)}
    (h : givenAt? name w = some given) : Gives name w given := by
  by_cases htable : ∃ members, w = .table members
  · obtain ⟨members, rfl⟩ := htable
    rw [givenAt?] at h
    split at h
    · rename_i hname
      obtain ⟨x, hx⟩ : ∃ x : Setting, x.group? = some name := by
        rcases (by simpa [groups] using hname : name = "transfer" ∨ name = "logging") with rfl | rfl
        · exact ⟨.destinationType, rfl⟩
        · exact ⟨.logFilter, rfl⟩
      exact .group hx h
    · cases h
  · obtain ⟨x, hx, v, hv, rfl⟩ : ∃ x, Setting.ofDotted? name = some x ∧
        ∃ v, Scalar.ofToml? w = some v ∧ [(x, v)] = given := by
      cases w <;> simp_all [givenAt?, Option.bind_eq_some_iff]
    exact .single (Setting.ofDotted?_eq_some hx) hv

/-! ## Trees -/

/-- A single value, if there is one. -/
inductive Carries : Option Tree → Option Scalar → Prop
  | nothing : Carries none none
  | value (origin : Origin) (v : Scalar) : Carries (some (.scalar origin v)) (some v)

/-- Nothing or a table. -/
inductive Open : Option Tree → Prop
  | nothing : Open none
  | table (origin? : Option Origin) (members : Members) : Open (some (.table origin? members))

/-- A tree of settings that holds these values. -/
structure Holds (ms : Members) (held : Setting → Option Scalar) : Prop where
  single : ∀ x, x.group? = none → Carries (ms.find? x.name) (held x)
  group : ∀ x t, x.group? = some t → Open (ms.find? t) ∧
    Carries (Members.find? (Tree.membersOf (ms.find? t)) x.name) (held x)

/-- The values that are held after others have been given. -/
def lay (held : Setting → Option Scalar) (given : List (Setting × Scalar)) :
    Setting → Option Scalar :=
  given.foldl (fun held p => Function.update held p.1 (some p.2)) held

/-- A setting that was given once has the value that was given. -/
theorem lay_eq (held : Setting → Option Scalar) {given : List (Setting × Scalar)}
    (honce : (given.map Prod.fst).Nodup) (x : Setting) :
    lay held given x = (given.lookup x).or (held x) := by
  induction given generalizing held with
  | nil => rfl
  | cons p given ih =>
    obtain ⟨y, v⟩ := p
    obtain ⟨hnot, honce⟩ := List.nodup_cons.1 honce
    rw [lay, List.foldl_cons]
    refine (ih _ honce).trans ?_
    by_cases hxy : x = y
    · subst hxy
      have hlookup : given.lookup x = none := by
        rw [List.lookup_eq_none_iff]
        rintro ⟨z, w⟩ hmem
        have hne : z ≠ x := fun heq => hnot (List.mem_map.2 ⟨(z, w), hmem, heq⟩)
        simpa using hne.symm
      simp [hlookup]
    · have hbeq : (x == y) = false := by simpa using hxy
      simp [List.lookup_cons, hbeq, Function.update_of_ne hxy]

namespace Holds

variable {ms inner : Members} {held : Setting → Option Scalar} {x : Setting} {t : String}
  {origin : Origin} {origin? : Option Origin} {v : Scalar}

theorem empty : Holds [] fun _ => none where
  single _ _ := .nothing
  group _ _ _ := ⟨.nothing, .nothing⟩

/-- A value for a setting without a group. -/
theorem put (h : Holds ms held) (hx : x.group? = none) :
    Holds (ms.put x.name (.scalar origin v)) (Function.update held x (some v)) where
  single y hy := by
    rw [Members.find?_put]
    by_cases hyx : y = x
    · subst hyx
      simpa using Carries.value origin v
    · have hne : x.name ≠ y.name :=
        fun heq => hyx (Setting.eq_of_name (hy.trans hx.symm) heq.symm)
      simpa [hne, hyx] using h.single y hy
  group y t hy := by
    have hne : y ≠ x := by
      rintro rfl
      rw [hx] at hy
      cases hy
    rw [Members.find?_put, if_neg (Setting.name_ne_group hx hy), Function.update_of_ne hne]
    exact h.group y t hy

/-- The table of a group, with the members that it has already. -/
theorem openGroup (origin? : Option Origin) (h : Holds ms held) (hx : x.group? = some t) :
    Holds (ms.put t (.table origin? (Tree.membersOf (ms.find? t)))) held where
  single y hy := by
    rw [Members.find?_put, if_neg (Setting.name_ne_group hy hx).symm]
    exact h.single y hy
  group y u hy := by
    rw [Members.find?_put]
    by_cases htu : t = u
    · subst htu
      simpa using ⟨Open.table _ _, (h.group y t hy).2⟩
    · rw [if_neg htu]
      exact h.group y u hy

/-- A value for a setting in the table of its group. -/
theorem putWithin (origin'? : Option Origin) (h : Holds (ms.put t (.table origin? inner)) held)
    (hx : x.group? = some t) :
    Holds (ms.put t (.table origin'? (inner.put x.name (.scalar origin v))))
      (Function.update held x (some v)) where
  single y hy := by
    have hne : y ≠ x := by
      rintro rfl
      rw [hx] at hy
      cases hy
    have hheld := h.single y hy
    rw [Members.find?_put, if_neg (Setting.name_ne_group hy hx).symm] at hheld ⊢
    rw [Function.update_of_ne hne]
    exact hheld
  group y u hy := by
    have hheld := h.group y u hy
    rw [Members.find?_put] at hheld ⊢
    by_cases htu : t = u
    · subst htu
      simp only [if_true, Tree.membersOf] at hheld ⊢
      refine ⟨.table _ _, ?_⟩
      rw [Members.find?_put]
      by_cases hyx : y = x
      · subst hyx
        simpa using Carries.value origin v
      · have hne : x.name ≠ y.name :=
          fun heq => hyx (Setting.eq_of_name (hy.trans hx.symm) heq.symm)
        simpa [hne, hyx] using hheld.2
    · have hne : y ≠ x := by
        rintro rfl
        exact htu (Option.some.inj (hx.symm.trans hy))
      rw [if_neg htu] at hheld ⊢
      rw [Function.update_of_ne hne]
      exact hheld

/-- A value is laid over a tree at the place of its setting. -/
theorem overAt (h : Holds ms held) :
    Holds (Settings.overAt (.scalar origin v) (x.names.map .member) ms)
      (Function.update held x (some v)) := by
  cases hx : x.group? with
  | none =>
    rw [Setting.names_of_group?_eq_none hx]
    exact h.put hx
  | some t =>
    rw [Setting.names_of_group?_eq_some hx]
    exact (h.openGroup none hx).putWithin (Tree.tableOrigin? (ms.find? t)) hx

/-! ## Files -/

theorem ofToml_of_scalar {w : Toml.Value} (hw : Scalar.ofToml? w = some v) :
    ofToml origin w = .scalar origin v := by
  cases w <;> simp_all [Scalar.ofToml?, ofToml]

/-- The values in the table of a group. -/
theorem overAll {members : List (String × Toml.Value)} {given : List (Setting × Scalar)}
    (hx : x.group? = some t) (h : Holds (ms.put t (.table origin? inner)) held)
    (hgiven : givenInGroup? t members = some given) :
    Holds (ms.put t (.table none (Settings.overAll (membersOfToml origin members) inner)))
      (lay held given) := by
  induction members generalizing inner held given origin? with
  | nil =>
    obtain rfl : [] = given := by simpa [givenInGroup?] using hgiven
    have hopen := h.openGroup none hx
    rw [Members.put_put, Members.find?_put, if_pos rfl] at hopen
    exact hopen
  | cons m members ih =>
    obtain ⟨name, w⟩ := m
    obtain ⟨y, hy, v, hv, rest, hrest, rfl⟩ :
        ∃ y, Setting.within? t (Text.small name) = some y ∧ ∃ v, Scalar.ofToml? w = some v ∧
          ∃ rest, givenInGroup? t members = some rest ∧ (y, v) :: rest = given := by
      simpa [givenInGroup?, List.mapM_cons, Option.bind_eq_some_iff] using hgiven
    obtain ⟨hgroup, hname⟩ := Setting.within?_eq_some hy
    rw [membersOfToml, ofToml_of_scalar hv, Settings.overAll, over_scalar, ← hname]
    show Holds _ (lay (Function.update held y (some v)) rest)
    exact ih (h.putWithin none hgroup) hrest

theorem overDocument_cons (origin : Origin) (name : String) (w : Toml.Value)
    (document : List (String × Toml.Value)) (ms : Members) :
    Settings.overDocument origin ((name, w) :: document) ms
      = Settings.overDocument origin document
          (Settings.overAt (ofToml origin w) (path (Text.small name)) ms) := by
  rw [Settings.overDocument, membersOfToml, List.foldl_cons]
  rfl

/-- A file that gives settings and nothing else is laid over a tree. -/
theorem overDocument (origin : Origin) {document : List (String × Toml.Value)}
    {given : List (Setting × Scalar)} (h : Holds ms held)
    (hgiven : givenIn? document = some given) :
    Holds (Settings.overDocument origin document ms) (lay held given) := by
  induction document generalizing ms held given with
  | nil =>
    obtain rfl : [] = given := by simpa [givenIn?] using hgiven
    exact h
  | cons m document ih =>
    obtain ⟨name, w⟩ := m
    obtain ⟨first, hfirst, rest, hrest, rfl⟩ : ∃ first, givenAt? (Text.small name) w = some first ∧
        ∃ rest, givenIn? document = some rest ∧ first ++ rest = given := by
      simpa [givenIn?, Option.bind_eq_some_iff] using hgiven
    rw [overDocument_cons, lay, List.foldl_append]
    refine ih ?_ hrest
    cases gives_of_givenAt? hfirst with
    | single hname hv =>
      rw [← hname, Setting.path_dotted, ofToml_of_scalar hv]
      exact h.overAt
    | group hx hmembers =>
      rw [Setting.path_group hx]
      exact overAll hx (h.openGroup none hx) hmembers

/-! ## Environments -/

/-- An environment is laid over a tree; variables of others do not matter. -/
theorem overVariables {environment : List (String × String)} (h : Holds ms held)
    (hours : ∀ v ∈ environment, isOurs v.1 → (Setting.ofVariable? v.1).isSome) :
    Holds (environment.foldl overVariable ms) (lay held (givenBy environment)) := by
  induction environment generalizing ms held with
  | nil => exact h
  | cons v environment ih =>
    rw [List.forall_mem_cons] at hours
    rw [List.foldl_cons, givenBy, List.filterMap_cons]
    cases hx : Setting.ofVariable? v.1 with
    | none =>
      -- then the variable is not one of ours
      have hforeign : isOurs v.1 = false := by
        have hours := hours.1
        rw [hx] at hours
        simpa using hours
      rw [overVariable, variablePath?_of_foreign hforeign]
      exact ih h hours.2
    | some x =>
      rw [overVariable, Setting.variablePath?_eq hx]
      exact ih h.overAt hours.2

/-! ## Reading -/

/-- What is read is the value that is carried, or the default without one. -/
theorem read_carried {α : Type} {expected : String} {convert : Scalar → Except (String × String) α}
    {t? : Option Tree} {v? : Option Scalar} (h : Carries t? v?)
    (hreadable : ∀ v, v? = some v → ∃ a, convert v = .ok a) (default : α) (name : String) :
    ∃ a, orDefault default (Tree.scalar? expected convert name) t? = .ok a ∧
      (∀ v, v? = some v → convert v = .ok a) ∧ (v? = none → a = default) := by
  cases h with
  | nothing => exact ⟨default, rfl, nofun, fun _ => rfl⟩
  | value origin v =>
    obtain ⟨a, ha⟩ := hreadable v rfl
    refine ⟨a, by simp [orDefault, Tree.scalar?, ha, Except.mapError], fun w hw => ?_, nofun⟩
    exact Option.some.inj hw ▸ ha

/-- Every value can be read as a text. -/
theorem read_carried_text {t? : Option Tree} {v? : Option Scalar} (h : Carries t? v?)
    (default name : String) :
    ∃ s, orDefault default (Tree.text name) t? = .ok s ∧
      (∀ v, v? = some v → v.toText = s) ∧ (v? = none → s = default) := by
  obtain ⟨s, hread, hgiven, hnone⟩ :
      ∃ s, orDefault default (Tree.text name) t? = .ok s ∧
        (∀ v, v? = some v → .ok v.toText = Except.ok s) ∧ (v? = none → s = default) :=
    read_carried h (fun v _ => ⟨v.toText, rfl⟩) default name
  exact ⟨s, hread, fun v hv => Except.ok.inj (hgiven v hv), hnone⟩

/-- A group that is not there is read like an empty table. -/
theorem readTransfer_of_open {t? : Option Tree} (h : Open t?) :
    orDefault {} readTransfer t? = readTransfer (.table none (Tree.membersOf t?)) := by
  cases h <;> rfl

theorem readLogging_of_open {t? : Option Tree} (h : Open t?) :
    orDefault {} readLogging t? = readLogging (.table none (Tree.membersOf t?)) := by
  cases h <;> rfl

/-- A number that stands by itself. -/
theorem readNatural (h : Holds ms held) (x : Setting) (hx : x.group? = none)
    (hreadable : ∀ v, held x = some v → ∃ n, Scalar.toNatural v = .ok n) (default : Nat) :
    ∃ n, orDefault default (Tree.natural x.name) (ms.find? x.name) = .ok n ∧
      (∀ v, held x = some v → Scalar.toNatural v = .ok n) ∧ (held x = none → n = default) :=
  read_carried (h.single x hx) hreadable default x.name

theorem readTransfer (h : Holds ms held) :
    ∃ transfer, orDefault {} Settings.readTransfer (ms.find? "transfer") = .ok transfer ∧
      (∀ v, held .destinationType = some v → v.toText = transfer.destinationType) ∧
      (held .destinationType = none → transfer = {}) := by
  obtain ⟨hopen, hkind⟩ := h.group .destinationType "transfer" rfl
  obtain ⟨kind, hread, hgiven, hnone⟩ :=
    read_carried_text hkind "HttpProxy" "transfer.destination_type"
  refine ⟨{ destinationType := kind }, ?_, hgiven, fun hheld => by rw [hnone hheld]⟩
  rw [readTransfer_of_open hopen]
  simp only [Setting.name] at hread
  simp only [Settings.readTransfer, hread]
  rfl

theorem readLogging (h : Holds ms held)
    (hreadable : ∀ v, held .logJson = some v → ∃ b, Scalar.toBoolean v = .ok b) :
    ∃ logging, orDefault {} Settings.readLogging (ms.find? "logging") = .ok logging ∧
      ((∀ v, held .logFilter = some v → v.toText = logging.filter) ∧
        (held .logFilter = none → logging.filter = "info,cp_adapter=debug")) ∧
      ((∀ v, held .logJson = some v → v.toBoolean = .ok logging.json) ∧
        (held .logJson = none → logging.json = false)) := by
  obtain ⟨hopen, hfilter⟩ := h.group .logFilter "logging" rfl
  obtain ⟨-, hjson⟩ := h.group .logJson "logging" rfl
  obtain ⟨filter, hfilter, hfilterHeld⟩ :=
    read_carried_text hfilter "info,cp_adapter=debug" "logging.filter"
  obtain ⟨json, hjson, hjsonGiven⟩ :
      ∃ json, orDefault false (Tree.boolean "logging.json")
          (Members.find? (Tree.membersOf (ms.find? "logging")) "json") = .ok json ∧
        (∀ v, held .logJson = some v → v.toBoolean = .ok json) ∧
        (held .logJson = none → json = false) :=
    read_carried hjson hreadable false "logging.json"
  refine ⟨{ filter, json }, ?_, hfilterHeld, hjsonGiven⟩
  rw [readLogging_of_open hopen]
  simp only [Setting.name] at hfilter
  simp only [Settings.readLogging, hfilter, hjson]
  rfl

/-- The settings in a tree whose values can be read: each has the content of its value, and without
one it is at its default. -/
theorem read (h : Holds ms held) (hreadable : ∀ x v, held x = some v → ∃ c, x.read v = .ok c) :
    ∃ settings, ofMembers ms = .ok settings ∧
      ∀ x : Setting, (∀ v, held x = some v → x.read v = .ok (x.get settings)) ∧
        (held x = none → x.get settings = x.get {}) := by
  obtain ⟨caseTtlSecs, hcase, hcaseHeld⟩ :=
    h.readNatural .caseTtlSecs rfl (hreadable .caseTtlSecs) 300
  obtain ⟨sweepIntervalMs, hsweep, hsweepHeld⟩ :=
    h.readNatural .sweepIntervalMs rfl (hreadable .sweepIntervalMs) 1000
  obtain ⟨resultTtlSecs, hresult, hresultHeld⟩ :=
    h.readNatural .resultTtlSecs rfl (hreadable .resultTtlSecs) 600
  obtain ⟨offerCacheTtlSecs, hoffer, hofferHeld⟩ :=
    h.readNatural .offerCacheTtlSecs rfl (hreadable .offerCacheTtlSecs) 60
  obtain ⟨parkedEventTtlSecs, hparked, hparkedHeld⟩ :=
    h.readNatural .parkedEventTtlSecs rfl (hreadable .parkedEventTtlSecs) 30
  obtain ⟨transfer, htransfer, hkindGiven, hkindNone⟩ := h.readTransfer
  obtain ⟨logging, hlogging, hfilterHeld, hjsonHeld⟩ := h.readLogging (hreadable .logJson)
  refine ⟨{ caseTtlSecs, sweepIntervalMs, resultTtlSecs, offerCacheTtlSecs, parkedEventTtlSecs,
            transfer, logging }, ?_, fun x => ?_⟩
  · simp only [Setting.name] at hcase hsweep hresult hoffer hparked
    simp only [ofMembers, hcase, hsweep, hresult, hoffer, hparked, htransfer, hlogging]
    rfl
  · cases x with
    | caseTtlSecs => exact hcaseHeld
    | sweepIntervalMs => exact hsweepHeld
    | resultTtlSecs => exact hresultHeld
    | offerCacheTtlSecs => exact hofferHeld
    | parkedEventTtlSecs => exact hparkedHeld
    | destinationType =>
      exact ⟨fun v hv => congrArg Except.ok (hkindGiven v hv), fun hheld => by
        rw [hkindNone hheld]; rfl⟩
    | logFilter => exact ⟨fun v hv => congrArg Except.ok (hfilterHeld.1 v hv), hfilterHeld.2⟩
    | logJson => exact hjsonHeld

end Holds

/-! ## Loading -/

variable {file? : Option SettingsFile} {environment : List (String × String)}
  {given : List (Setting × Scalar)} {settings : Settings}

theorem gather_of_documentOf? {document : List (String × Toml.Value)}
    (h : documentOf? file? = some document) :
    ∃ origin, gather file? environment
      = .ok (environment.foldl overVariable (overDocument origin document [])) := by
  cases file? with
  | none =>
    obtain rfl : [] = document := by simpa [documentOf?] using h
    exact ⟨.environment, rfl⟩
  | some file =>
    obtain ⟨text, htext, hdocument⟩ := Option.bind_eq_some_iff.1 h
    exact ⟨.file file.path, by simp only [gather, readFile, htext, hdocument]; rfl⟩

/-- The values that a file and an environment give, each setting at most once in either. -/
theorem Sources.holds (h : Sources file? environment given) :
    ∃ ms, gather file? environment = .ok ms ∧
      Holds ms fun x => ((givenBy environment).lookup x).or (given.lookup x) := by
  obtain ⟨document, hdocument, hgiven⟩ := Option.bind_eq_some_iff.1 h.file
  obtain ⟨origin, hgather⟩ := gather_of_documentOf? hdocument
  refine ⟨_, hgather, ?_⟩
  have hholds := (Holds.empty.overDocument origin hgiven).overVariables h.known
  convert hholds using 2 with x
  rw [lay_eq _ h.onceInEnvironment, lay_eq _ h.onceInFile, Option.or_none]

theorem mem_of_lookup {x : Setting} {v : Scalar} (h : given.lookup x = some v) :
    (x, v) ∈ given := by
  obtain ⟨before, after, rfl, -⟩ := List.lookup_eq_some_iff.1 h
  simp

/-- Settings are gathered from their layers before they are looked at. -/
theorem Sources.exists_layered (h : Sources file? environment given) :
    ∃ settings, Layered (givenBy environment) given settings ∧
      load file? environment = match settings.objection? with
        | some objection => .error (.invalid objection)
        | none => .ok settings := by
  obtain ⟨ms, hgather, hholds⟩ := h.holds
  obtain ⟨settings, hread, hlayers⟩ := hholds.read fun x v hv => by
    refine h.readable (x, v) (List.mem_append.2 ?_)
    rcases Option.or_eq_some_iff.1 hv with henvironment | ⟨-, hfile⟩
    · exact .inr (mem_of_lookup henvironment)
    · exact .inl (mem_of_lookup hfile)
  refine ⟨settings, ⟨fun x v hv => (hlayers x).1 v ?_, fun x v hnone hv => (hlayers x).1 v ?_,
    fun x hnone hnone' => (hlayers x).2 ?_⟩, ?_⟩
  · rw [hv, Option.some_or]
  · rw [hnone, hv, Option.none_or]
  · rw [hnone, hnone', Option.or_none]
  rw [load, hgather]
  show (Except.mapError LoadError.misfit (ofMembers ms) >>= _) = _
  rw [hread]
  rfl

/-- There is an objection exactly to a time that must pass and is zero, and to a destination
without a kind. -/
theorem objection?_isSome_iff : (settings.objection?).isSome ↔
    (settings.caseTtlSecs = 0 ∨ settings.sweepIntervalMs = 0 ∨ settings.resultTtlSecs = 0 ∨
      settings.parkedEventTtlSecs = 0) ∨
    ∀ c ∈ settings.transfer.destinationType.toList, Text.isBlank c := by
  have hpositive : (settings.positive.find? fun p => p.2 = 0).isSome ↔
      settings.caseTtlSecs = 0 ∨ settings.sweepIntervalMs = 0 ∨ settings.resultTtlSecs = 0 ∨
        settings.parkedEventTtlSecs = 0 := by
    simp [positive]
  have hblank : Text.allBlank settings.transfer.destinationType ↔
      ∀ c ∈ settings.transfer.destinationType.toList, Text.isBlank c := List.all_eq_true
  rw [← hpositive, ← hblank, objection?]
  cases settings.positive.find? fun p => p.2 = 0 <;> simp

/-- Each setting is read from its variable, or else from the file, or else it is at its default, and
what the other settings are does not matter.  The settings are refused exactly if a time that must
pass is zero or the destination has no kind. -/
theorem settings_are_layered (h : Sources file? environment given) :
    ∃ settings, Layered (givenBy environment) given settings ∧
      ((∃ i, load file? environment = .error (.invalid i)) ↔
        (settings.caseTtlSecs = 0 ∨ settings.sweepIntervalMs = 0 ∨ settings.resultTtlSecs = 0 ∨
          settings.parkedEventTtlSecs = 0) ∨
        ∀ c ∈ settings.transfer.destinationType.toList, Text.isBlank c) ∧
      ((∀ i, load file? environment ≠ .error (.invalid i)) →
        load file? environment = .ok settings) := by
  obtain ⟨settings, hlayered, hload⟩ := h.exists_layered
  refine ⟨settings, hlayered, ?_, ?_⟩
  · rw [← objection?_isSome_iff, hload]
    cases settings.objection? <;> simp
  · rw [hload]
    cases settings.objection? <;> simp

/-- A file with a setting of its own, one that a variable overrides, and a word for true. -/
def fileLayer : SettingsFile where
  path := "settings.toml"
  text? := some
    "case_ttl_secs = 5\n[Transfer]\ndestination_type = \"AmazonS3\"\n[logging]\njson = \"yes\"\n"

/-- Variables for three settings, and one of others. -/
def variableLayer : List (String × String) :=
  [("PATH", "/bin"), ("cp_adapter_Transfer__Destination_Type", "Azure"),
   ("CP_ADAPTER_LOGGING__FILTER", "debug"), ("CP_ADAPTER_RESULT_TTL_SECS", "7")]

/-- In either table the variable takes one setting and leaves the other layers the rest. -/
theorem settings_are_layered_of_three_layers :
    load (some fileLayer) variableLayer
      = .ok { caseTtlSecs := 5, resultTtlSecs := 7
              transfer := { destinationType := "Azure" }
              logging := { filter := "debug", json := true } } := by
  have hfile : (documentOf? (some fileLayer)).bind givenIn?
      = some [(.caseTtlSecs, .whole 5), (.destinationType, .text "AmazonS3"),
          (.logJson, .text "yes")] := by decide +kernel
  have hvariables : givenBy variableLayer
      = [(.destinationType, .text "Azure"), (.logFilter, .text "debug"),
          (.resultTtlSecs, .whole 7)] := by decide +kernel
  have hyes : Scalar.toBoolean (.text "yes") = .ok true := by decide +kernel
  have hsources : Sources (some fileLayer) variableLayer _ :=
    { file := hfile
      onceInFile := by decide
      known := by decide +kernel
      onceInEnvironment := by rw [hvariables]; decide
      readable := by
        rw [hvariables]
        simp only [List.cons_append, List.nil_append, List.forall_mem_cons]
        exact ⟨⟨_, rfl⟩, ⟨_, rfl⟩, ⟨true, hyes⟩, ⟨_, rfl⟩, ⟨_, rfl⟩, ⟨_, rfl⟩, nofun⟩ }
  obtain ⟨settings, hlayered, hinvalid, hok⟩ := settings_are_layered hsources
  rw [hvariables] at hlayered
  obtain ⟨caseTtlSecs, sweepIntervalMs, resultTtlSecs, offerCacheTtlSecs, parkedEventTtlSecs,
    ⟨destinationType⟩, ⟨filter, json⟩⟩ := settings
  -- the file
  have hcase : 5 = caseTtlSecs := Except.ok.inj (hlayered.ofFile .caseTtlSecs (.whole 5) rfl rfl)
  have hjson : true = json :=
    Except.ok.inj (hyes.symm.trans (hlayered.ofFile .logJson (.text "yes") rfl rfl))
  -- the environment
  have hkind : "Azure" = destinationType :=
    Except.ok.inj (hlayered.ofVariable .destinationType (.text "Azure") rfl)
  have hfilter : "debug" = filter :=
    Except.ok.inj (hlayered.ofVariable .logFilter (.text "debug") rfl)
  have hresult : 7 = resultTtlSecs :=
    Except.ok.inj (hlayered.ofVariable .resultTtlSecs (.whole 7) rfl)
  -- the defaults
  have hsweep : sweepIntervalMs = 1000 := hlayered.ofDefault .sweepIntervalMs rfl rfl
  have hoffer : offerCacheTtlSecs = 60 := hlayered.ofDefault .offerCacheTtlSecs rfl rfl
  have hparked : parkedEventTtlSecs = 30 := hlayered.ofDefault .parkedEventTtlSecs rfl rfl
  subst hcase hjson hkind hfilter hresult hsweep hoffer hparked
  refine hok fun i hi => ?_
  have hrefused := hinvalid.1 ⟨i, hi⟩
  rw [← objection?_isSome_iff] at hrefused
  exact absurd hrefused (by decide +kernel)

end Settings

end Rendezvous
