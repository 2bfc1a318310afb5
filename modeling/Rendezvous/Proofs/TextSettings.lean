import Mathlib.Data.List.TakeDrop
import Rendezvous.Proofs.Layers
import Rendezvous.Proofs.TomlTexts
import Rendezvous.Settings.TextSetting

/-!
# Settings that are texts

A text between quotes in a file is taken as it is.  The text of a variable is taken as it is too,
unless it spells a boolean or a number: then what it spells is written anew, and two spellings of
the same thing cannot be told apart.

* `TextSetting.document?_inFile`: every text can be given in a file;
* `taken_eq_iff`: which texts a variable can give as they are;
* `allBlank_taken`: what is taken is not blank if the text is not;
* `texts_are_verbatim_unless_spellings`: what is loaded from either source.
-/

namespace Rendezvous

/-! ## Files with one text -/

namespace TextSetting

open Toml

variable (x : TextSetting) (s : String)

theorem lines?_header (n : Nat) (cs : List Char) :
    lines? (n + 1) {} (("[" ++ x.group ++ "]\n").toList ++ cs)
      = lines? n { members := [(x.group, .table .headed [])], header := [x.group] } cs := by
  have hline : line? {} (("[" ++ x.group ++ "]\n").toList ++ cs)
      = some ({ members := [(x.group, .table .headed [])], header := [x.group] }, '\n' :: cs) := by
    cases x <;> rfl
  refine lines?_cons ?_ ?_ hline rfl <;> cases x
  · rfl
  · rfl
  · nofun
  · nofun

theorem lines?_member (n : Nat) :
    lines? (n + 1) { members := [(x.group, .table .headed [])], header := [x.group] }
        ((x.setting.name ++ " = ").toList ++ (quoted s ++ ['\n']))
      = lines? n { members := [(x.group, .table .headed [(x.setting.name, .value (.text s))])]
                   header := [x.group] } [] := by
  have hhead : ((x.setting.name ++ " = ").toList ++ (quoted s ++ ['\n'])).head?
      = x.setting.name.toList.head? := by
    cases x <;> rfl
  have hkey : key? ((x.setting.name ++ " = ").toList ++ (quoted s ++ ['\n']))
      = some ([x.setting.name], '=' :: ' ' :: (quoted s ++ ['\n'])) := by
    cases x <;> rfl
  have hassign : within (assign [x.setting.name] (.text s)) [x.group]
      [(x.group, .table .headed [])]
        = some [(x.group, .table .headed [(x.setting.name, .value (.text s))])] := by
    cases x <;> rfl
  have hline := line?_of_key
    (d := { members := [(x.group, .table .headed [])], header := [x.group] })
    (by rw [hhead]; cases x <;> decide) hkey (value?_quoted _ s (by simp)) hassign
  refine lines?_cons ?_ ?_ hline rfl <;> cases x
  · rfl
  · rfl
  · nofun
  · nofun

/-- A file with nothing but a text is read as such. -/
theorem document?_inFile :
    document? (x.inFile s) = some [(x.group, .table [(x.setting.name, .text s)])] := by
  have hchars : (x.inFile s).toList = ("[" ++ x.group ++ "]\n").toList
      ++ ((x.setting.name ++ " = ").toList ++ (quoted s ++ ['\n'])) := by
    simp [inFile]
  have hmark (cs : List Char) : withoutMark (("[" ++ x.group ++ "]\n").toList ++ cs)
      = ("[" ++ x.group ++ "]\n").toList ++ cs := by
    cases x <;> rfl
  obtain ⟨n, hlength⟩ : ∃ n, (("[" ++ x.group ++ "]\n").toList
      ++ ((x.setting.name ++ " = ").toList ++ (quoted s ++ ['\n']))).length = n + 2 := by
    refine ⟨_ - 2, (Nat.sub_add_cancel ?_).symm⟩
    simp
    omega
  rw [document?, hchars, hmark, hlength, lines?_header, lines?_member]
  rfl

end TextSetting

namespace Settings

/-! ## Booleans and numbers -/

/-- The small letters that a number can begin with. -/
def numberHeads : List Char :=
  ['+', '-', '.', '0', '1', '2', '3', '4', '5', '6', '7', '8', '9', 'i', 'n']

/-- The first character of a text begins a number. -/
def BeginsNumber (cs : List Char) : Prop := ∃ c rest, cs = c :: rest ∧ c.toLower ∈ numberHeads

/-- What holds of the ten digits. -/
theorem of_isDigit {P : Char → Prop} (hall : ∀ n < 10, P (Char.ofNat (n + 48))) {c : Char}
    (h : c.isDigit) : P c := by
  have hbounds : 48 ≤ c.toNat ∧ c.toNat ≤ 57 := by
    simpa [Char.isDigit, UInt32.le_iff_toNat_le] using h
  have hdigit := hall (c.toNat - 48) (by omega)
  rwa [Nat.sub_add_cancel hbounds.1, Char.ofNat_toNat] at hdigit

theorem toLower_of_isDigit {c : Char} (h : c.isDigit) : c.toLower ∈ numberHeads :=
  of_isDigit (P := fun c => c.toLower ∈ numberHeads) (by decide) h

/-- A sign can come first. -/
theorem beginsNumber_of_splitSign {cs : List Char}
    (h : BeginsNumber (Binary64.splitSign cs).2) : BeginsNumber cs := by
  unfold Binary64.splitSign at h
  split at h
  · exact ⟨'-', _, rfl, by decide⟩
  · exact ⟨'+', _, rfl, by decide⟩
  · exact h

theorem beginsNumber_of_exponent? {cs : List Char} {n : Int}
    (h : Binary64.exponent? cs = some n) : BeginsNumber cs := by
  refine beginsNumber_of_splitSign ?_
  unfold Binary64.exponent? at h
  generalize Binary64.splitSign cs = parts at h ⊢
  obtain ⟨negative, digits⟩ := parts
  cases digits with
  | nil => cases h
  | cons c rest =>
    have hdigit : c.isDigit := by
      by_contra hnot
      simp [hnot] at h
    exact ⟨c, rest, rfl, toLower_of_isDigit hdigit⟩

theorem toLower_of_word? {negative : Bool} {c : Char} {cs : List Char} {x : Binary64}
    (h : Binary64.word? negative ((c :: cs).map Char.toLower) = some x) :
    c.toLower ∈ numberHeads := by
  have hname (s : String) (hs : String.ofList ((c :: cs).map Char.toLower) = s) :
      s.toList.head? = some c.toLower := by
    rw [← hs, String.toList_ofList]
    rfl
  simp only [Binary64.word?, Bool.or_eq_true, decide_eq_true_eq] at h
  split_ifs at h with hinf hnan
  · rcases hinf with hinf | hinf
    · rw [← Option.some.inj (hname "inf" hinf)]
      decide
    · rw [← Option.some.inj (hname "infinity" hinf)]
      decide
  · rw [← Option.some.inj (hname "nan" hnan)]
    decide

theorem beginsNumber_of_unsigned? {negative : Bool} {cs : List Char} {x : Binary64}
    (h : Binary64.unsigned? negative cs = some x) : BeginsNumber cs := by
  cases cs with
  | nil => cases h
  | cons c rest =>
    refine ⟨c, rest, rfl, ?_⟩
    by_cases hdigit : c.isDigit
    · exact toLower_of_isDigit hdigit
    by_cases hpoint : c = '.'
    · rw [hpoint]
      decide
    -- without a digit it is a word
    have hspan : (c :: rest).span Char.isDigit = ([], c :: rest) := by
      simp [List.span_eq_takeWhile_dropWhile, hdigit]
    have hfraction : Binary64.fraction (c :: rest) = ([], c :: rest) := by
      rw [Binary64.fraction]
      intro _ heq
      exact hpoint (List.cons.inj heq).1
    rw [Binary64.unsigned?, hspan] at h
    simp only [hfraction, List.isEmpty_nil, Bool.and_self, if_true] at h
    exact toLower_of_word? h

theorem beginsNumber_of_read? {cs : List Char} {x : Binary64}
    (h : Binary64.read? cs = some x) : BeginsNumber cs :=
  beginsNumber_of_splitSign (beginsNumber_of_unsigned? h)

/-- No number is a word for a boolean. -/
theorem small_of_beginsNumber {s : String} (h : BeginsNumber s.toList) (b : Bool) :
    Text.small s ≠ toString b := by
  obtain ⟨c, rest, hs, hc⟩ := h
  have hlow : c.toNat < 0x80 := by
    by_contra hhigh
    have hsame : c.toLower = c := dif_neg fun hcapital => by
      have hle : c.toNat ≤ 90 := hcapital.2
      omega
    rw [hsame] at hc
    have hheads : numberHeads.all fun d => d.toNat < 0x80 := by decide
    exact hhigh (by simpa using List.all_eq_true.1 hheads c hc)
  have hhead : (Text.small s).toList.head? = some c.toLower := by
    rw [Text.small, String.toList_ofList, hs, List.flatMap_cons, Text.smallChar, if_pos hlow]
    rfl
  intro heq
  rw [heq] at hhead
  have hword : numberHeads.all fun d => (toString b).toList.head? ≠ some d := by
    cases b <;> decide
  exact absurd hhead (by simpa using List.all_eq_true.1 hword _ hc)

/-- What a text spells is what is taken. -/
theorem taken_of_spells {s t : String} (h : Spells s t) : taken s = t := by
  cases h with
  | boolean b hb =>
    cases b with
    | false =>
      have hfalse : Text.small s = "false" := hb
      rw [taken, Scalar.ofText, hfalse]
      rfl
    | true =>
      have htrue : Text.small s = "true" := hb
      rw [taken, Scalar.ofText, htrue]
      rfl
  | whole n hn =>
    have hbegins : BeginsNumber s.toList := by
      obtain ⟨m, hm, -⟩ := Option.bind_eq_some_iff.1 hn
      exact beginsNumber_of_exponent? hm
    have htrue : Text.small s ≠ "true" := small_of_beginsNumber hbegins true
    have hfalse : Text.small s ≠ "false" := small_of_beginsNumber hbegins false
    simp only [taken, Scalar.ofText, if_neg htrue, if_neg hfalse, hn, Scalar.toText]
  | real x hwhole hx =>
    have hbegins := beginsNumber_of_read? hx
    have htrue : Text.small s ≠ "true" := small_of_beginsNumber hbegins true
    have hfalse : Text.small s ≠ "false" := small_of_beginsNumber hbegins false
    simp only [taken, Scalar.ofText, if_neg htrue, if_neg hfalse, hwhole, hx, Scalar.toText]

/-- A text that spells nothing is taken as it is. -/
theorem spells_taken (s : String) : taken s = s ∨ Spells s (taken s) := by
  unfold taken Scalar.ofText
  split_ifs with htrue hfalse
  · exact .inr (.boolean true htrue)
  · exact .inr (.boolean false hfalse)
  · cases hwhole : whole? s.toList with
    | some n => exact .inr (.whole n hwhole)
    | none =>
      cases hreal : Binary64.read? s.toList with
      | some x => exact .inr (.real x hwhole hreal)
      | none => exact .inl rfl

theorem taken_eq_iff (s : String) : taken s = s ↔ ∀ t, Spells s t → t = s := by
  refine ⟨fun htaken t ht => (taken_of_spells ht).symm.trans htaken, fun hspells => ?_⟩
  rcases spells_taken s with htaken | ht
  · exact htaken
  · exact hspells _ ht

/-! ## Blanks -/

theorem toList_toString (n : Nat) : (toString n).toList = Nat.toDigits 10 n := by
  rw [Nat.toString_eq_ofList_toDigits, String.toList_ofList]

theorem isDigit_of_mem_toDigits {n : Nat} {c : Char} (h : c ∈ Nat.toDigits 10 n) : c.isDigit :=
  Nat.isDigit_of_mem_toDigits (by decide) (by decide) h

theorem isBlank_of_isDigit {c : Char} (h : c.isDigit) : Text.isBlank c = false :=
  of_isDigit (P := fun c => Text.isBlank c = false) (by decide) h

theorem allBlank_eq_false_of_mem {s : String} {c : Char} (hc : c ∈ s.toList)
    (hblank : Text.isBlank c = false) : Text.allBlank s = false := by
  rw [Text.allBlank, List.all_eq_false]
  exact ⟨c, hc, by simp [hblank]⟩

theorem allBlank_toString (n : Int) : Text.allBlank (toString n) = false := by
  cases n with
  | ofNat m =>
    obtain ⟨c, cs, hcs⟩ := List.exists_cons_of_ne_nil (Nat.toDigits_ne_nil (n := m) (b := 10))
    have htext : (toString (Int.ofNat m)).toList = Nat.toDigits 10 m := toList_toString m
    have hmem : c ∈ Nat.toDigits 10 m := by simp [hcs]
    exact allBlank_eq_false_of_mem (htext ▸ hmem)
      (isBlank_of_isDigit (isDigit_of_mem_toDigits hmem))
  | negSucc m =>
    exact allBlank_eq_false_of_mem (c := '-') (by simp [toString, Int.repr]) (by decide)

/-- There is a digit or a point in every number. -/
theorem exists_mem_positional (ds : List Char) (before : Int) (whole : List Char) :
    ∃ c ∈ Binary64.positional ds before whole, c = '0' ∨ c = '.' ∨ c ∈ ds := by
  unfold Binary64.positional
  split_ifs with hsmall hlarge
  · exact ⟨'0', by simp, .inl rfl⟩
  · cases ds with
    | nil =>
      have hzero : '0' ∈ Binary64.zeros before.natAbs := List.mem_replicate.2 ⟨by omega, rfl⟩
      exact ⟨'0', by simp [hzero], .inl rfl⟩
    | cons d ds => exact ⟨d, by simp, by simp⟩
  · exact ⟨'.', by simp, .inr (.inl rfl)⟩

theorem mem_of_mem_trimZeros {ds : List Char} {c : Char} (h : c ∈ Binary64.trimZeros ds) :
    c ∈ ds := by
  rw [Binary64.trimZeros, List.mem_reverse] at h
  exact List.mem_reverse.1 ((List.dropWhile_sublist _).subset h)

theorem allBlank_plain (x : Binary64) : Text.allBlank x.plain = false := by
  cases x with
  | infinite negative => cases negative <;> decide
  | nan => decide
  | finite negative units =>
    obtain ⟨c, hc, hblank⟩ : ∃ c ∈ Binary64.positionalUnits .larger units [],
        Text.isBlank c = false := by
      unfold Binary64.positionalUnits
      split_ifs with hzero
      · exact ⟨'0', by simp, by decide⟩
      · obtain ⟨c, hc, hkind⟩ := exists_mem_positional (Binary64.significant .larger units).1
          (Binary64.significant .larger units).2 []
        refine ⟨c, hc, ?_⟩
        rcases hkind with rfl | rfl | hmem
        · decide
        · decide
        · exact isBlank_of_isDigit (isDigit_of_mem_toDigits (mem_of_mem_trimZeros hmem))
    exact allBlank_eq_false_of_mem (by simp [Binary64.plain, hc]) hblank

/-- A text that is not blank is not blank when it has been taken. -/
theorem allBlank_taken {s : String} (h : Text.allBlank s = false) :
    Text.allBlank (taken s) = false := by
  rcases spells_taken s with htaken | hspells
  · rw [htaken]
    exact h
  · generalize taken s = t at hspells
    cases hspells with
    | boolean b => cases b <;> decide
    | whole n => exact allBlank_toString n
    | real x => exact allBlank_plain x

/-! ## Loading -/

variable {file? : Option SettingsFile} {environment : List (String × String)}
  {above given : List (Setting × Scalar)} {settings : Settings} {x : TextSetting} {v : Scalar}

theorem eq_of_get {a b : Settings} (h : ∀ y : Setting, y.get a = y.get b) : a = b := by
  obtain ⟨_, _, _, _, _, ⟨_⟩, ⟨_, _⟩⟩ := a
  obtain ⟨_, _, _, _, _, ⟨_⟩, ⟨_, _⟩⟩ := b
  obtain rfl := h .caseTtlSecs
  obtain rfl := h .sweepIntervalMs
  obtain rfl := h .resultTtlSecs
  obtain rfl := h .offerCacheTtlSecs
  obtain rfl := h .parkedEventTtlSecs
  obtain rfl := h .destinationType
  obtain rfl := h .logFilter
  obtain rfl := h .logJson
  rfl

namespace Layered

theorem of_eq_of_variable (h : Layered above given settings)
    (hv : above.lookup x.setting = some v) : x.of settings = v.toText := by
  cases x
  · exact (Except.ok.inj (h.ofVariable .destinationType v hv)).symm
  · exact (Except.ok.inj (h.ofVariable .logFilter v hv)).symm

theorem of_eq_of_file (h : Layered above given settings) (hnone : above.lookup x.setting = none)
    (hv : given.lookup x.setting = some v) : x.of settings = v.toText := by
  cases x
  · exact (Except.ok.inj (h.ofFile .destinationType v hnone hv)).symm
  · exact (Except.ok.inj (h.ofFile .logFilter v hnone hv)).symm

/-- Without anything else, all other settings are at their defaults. -/
theorem eq_alone (h : Layered above given settings)
    (hothers : ∀ y, y ≠ x.setting → above.lookup y = none ∧ given.lookup y = none) :
    settings = x.alone (x.of settings) := by
  refine eq_of_get fun y => ?_
  by_cases hy : y = x.setting
  · subst hy
    cases x <;> rfl
  · have hdefault := h.ofDefault y (hothers y hy).1 (hothers y hy).2
    cases x <;> cases y <;> first | exact hdefault | exact absurd rfl hy

end Layered

theorem objection?_alone {text : String} (h : Text.allBlank text = false) :
    (x.alone text).objection? = none := by
  cases x with
  | destinationType => simp [TextSetting.alone, objection?, positive, h]
  | logFilter =>
    have hdefault : Text.allBlank "HttpProxy" = false := by decide
    simp [TextSetting.alone, objection?, positive, hdefault]

theorem Sources.load_alone {text : String} (h : Sources file? environment given)
    (hothers : ∀ y, y ≠ x.setting →
      (givenBy environment).lookup y = none ∧ given.lookup y = none)
    (htext : ∀ settings, Layered (givenBy environment) given settings → x.of settings = text)
    (hblank : Text.allBlank text = false) : load file? environment = .ok (x.alone text) := by
  obtain ⟨settings, hlayered, hload⟩ := h.exists_layered
  rw [hload, hlayered.eq_alone hothers, htext settings hlayered, objection?_alone hblank]

theorem Sources.layered_of_load (h : Sources file? environment given)
    (hload : load file? environment = .ok settings) :
    Layered (givenBy environment) given settings := by
  obtain ⟨settings', hlayered, hload'⟩ := h.exists_layered
  rw [hload'] at hload
  cases hobjection : settings'.objection? with
  | some objection => simp [hobjection] at hload
  | none =>
    simp only [hobjection, Except.ok.injEq] at hload
    exact hload ▸ hlayered

theorem lookup_of_ne {y z : Setting} (h : y ≠ z) : [(z, v)].lookup y = none := by
  rw [List.lookup_cons, beq_false_of_ne h]
  rfl

theorem exists_read (x : TextSetting) (v : Scalar) : ∃ c, x.setting.read v = .ok c := by
  cases x
  · exact ⟨v.toText, rfl⟩
  · exact ⟨v.toText, rfl⟩

/-- A file with nothing but a text for a setting. -/
theorem load_inFile (path : String) {text : String} (hblank : Text.allBlank text = false) :
    load (some { path, text? := some (x.inFile text) }) [] = .ok (x.alone text) := by
  have hfile : (documentOf? (some { path, text? := some (x.inFile text) })).bind givenIn?
      = some [(x.setting, .text text)] := by
    rw [documentOf?, Option.bind_some, x.document?_inFile]
    cases x <;> rfl
  have hsources : Sources (some { path, text? := some (x.inFile text) }) []
      [(x.setting, .text text)] :=
    { file := hfile
      onceInFile := by simp
      known := by simp
      onceInEnvironment := List.nodup_nil
      readable := fun p hp => by
        obtain rfl := List.mem_singleton.1 hp
        exact exists_read x _ }
  refine hsources.load_alone (fun y hy => ⟨rfl, lookup_of_ne hy⟩) (fun settings hlayered => ?_)
    hblank
  exact hlayered.of_eq_of_file rfl List.lookup_cons_self

/-- A variable with a text for a setting. -/
theorem load_variable {name text : String} (hname : Setting.ofVariable? name = some x.setting)
    (hblank : Text.allBlank text = false) :
    load none [(name, text)] = .ok (x.alone (taken text)) := by
  have hgiven : givenBy [(name, text)] = [(x.setting, .ofText text)] := by
    simp [givenBy, hname]
  have hsources : Sources none [(name, text)] [] :=
    { file := rfl
      onceInFile := List.nodup_nil
      known := by simp [hname]
      onceInEnvironment := by simp [hgiven]
      readable := fun p hp => by
        rw [hgiven] at hp
        obtain rfl := List.mem_singleton.1 hp
        exact exists_read x _ }
  refine hsources.load_alone (fun y hy => ?_) (fun settings hlayered => ?_) (allBlank_taken hblank)
  · rw [hgiven]
    exact ⟨lookup_of_ne hy, rfl⟩
  · rw [hgiven] at hlayered
    exact hlayered.of_eq_of_variable List.lookup_cons_self

/-- A text from a file is loaded as it is.  The text of a variable is loaded as it is exactly if
everything that it spells is written as it is taken, and two texts that are not loaded as they are
can come to the same. -/
theorem texts_are_verbatim_unless_spellings (x : TextSetting) (s : String)
    (hs : Text.allBlank s = false) :
    ((∀ path, load (some { path, text? := some (x.inFile s) }) [] = .ok (x.alone s)) ∧
      ∀ file? environment given settings, Sources file? environment given →
        (givenBy environment).lookup x.setting = none → given.lookup x.setting = some (.text s) →
        load file? environment = .ok settings → x.of settings = s) ∧
    ((∀ name, Setting.ofVariable? name = some x.setting →
        load none [(name, s)] = .ok (x.alone (taken s))) ∧
      ∀ file? environment given settings, Sources file? environment given →
        (givenBy environment).lookup x.setting = some (.ofText s) →
        load file? environment = .ok settings → x.of settings = taken s) ∧
    (∀ t, Spells s t → taken s = t) ∧
    (taken s = s ↔ ∀ t, Spells s t → t = s) ∧
    ∀ s', s' ≠ s → taken s' = taken s → (∃ t ≠ s, Spells s t) ∨ ∃ t ≠ s', Spells s' t := by
  refine ⟨⟨fun path => load_inFile path hs, ?_⟩, ⟨fun name hname => load_variable hname hs, ?_⟩,
    fun t ht => taken_of_spells ht, taken_eq_iff s, fun s' hne htaken => ?_⟩
  · intro file? environment given settings hsources hnone hgiven hload
    exact (hsources.layered_of_load hload).of_eq_of_file hnone hgiven
  · intro file? environment given settings hsources hgiven hload
    exact (hsources.layered_of_load hload).of_eq_of_variable hgiven
  · by_cases hsame : taken s = s
    · have hne' : taken s' ≠ s' := fun hsame' => hne (hsame'.symm.trans (htaken.trans hsame))
      exact .inr ⟨taken s', hne', (spells_taken s').resolve_left hne'⟩
    · exact .inl ⟨taken s, hsame, (spells_taken s).resolve_left hsame⟩

/-- Zeros at the beginning stay in a file and are lost in a variable. -/
theorem texts_are_verbatim_unless_spellings_of_zeros :
    load (some { path := "cp-adapter.toml", text? := some (TextSetting.logFilter.inFile "007") }) []
        = .ok { logging := { filter := "007" } } ∧
      load none [("CP_ADAPTER_LOGGING__FILTER", "007")] = .ok { logging := { filter := "7" } } := by
  obtain ⟨⟨hfile, -⟩, ⟨hvariable, -⟩, hspells, -⟩ :=
    texts_are_verbatim_unless_spellings .logFilter "007" (by decide)
  have htaken : taken "007" = "7" := hspells "7" (.whole 7 (by decide))
  refine ⟨hfile "cp-adapter.toml", ?_⟩
  rw [hvariable "CP_ADAPTER_LOGGING__FILTER" (by decide +kernel), htaken]
  rfl

/-- Two kinds of destinations that are not blank, given by the variable, come to the same kind. -/
theorem variable_loses_zeros :
    Text.allBlank "007" = false ∧
      load none [("CP_ADAPTER_TRANSFER__DESTINATION_TYPE", "007")]
        = .ok { transfer := { destinationType := "7" } } ∧
      load none [("CP_ADAPTER_TRANSFER__DESTINATION_TYPE", "7")]
        = .ok { transfer := { destinationType := "7" } } := by
  decide +kernel

end Settings

end Rendezvous
