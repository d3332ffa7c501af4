import TransactionKey.CommandLine
import TransactionKey.Proofs.Except
import TransactionKey.Proofs.Text.Numeral

/-!
# Layers of settings

A layer is checked when it is put on top of the ones below it, and these are good by then.  So a layer
passes just if it supplies no zero itself (`overlay_eq_ok`): a bad value is found even where a higher
layer covers it, and what is found of one layer depends on no other.  Nothing is used of the decoder of
files: what is said holds of every one.

* `Layer.FromVariables`, `CommandLine.FromFile`   what the environment and a file supply;
* `CommandLine.Topmost`                           settings from the highest layers that supply them;
* `CommandLine.settings_layered`                  the settings of a command line, and when it has any.
-/

namespace TransactionKey

/-! ## settings without a zero -/

structure Settings.Positive (s : Settings) : Prop where
  port : s.port ≠ 0
  connectTimeout : s.connectTimeout ≠ 0
  readTimeout : s.readTimeout ≠ 0
  maxReply : s.maxReply ≠ 0

/-- a layer that supplies no zero -/
structure Layer.Positive (l : Layer) : Prop where
  port : l.port ≠ some 0
  connectTimeout : l.connectTimeout ≠ some 0
  readTimeout : l.readTimeout ≠ some 0
  maxReply : l.maxReply ≠ some 0

theorem getD_ne_iff {α : Type} {o : Option α} {default zero : α} (h : default ≠ zero) :
    o.getD default ≠ zero ↔ o ≠ some zero := by
  cases o with
  | none => exact iff_of_true h nofun
  | some a => exact not_congr Option.some_inj.symm

namespace Settings

variable {s t : Settings} {l file flags : Layer} {value? : String → Option String}

theorem check_eq_ok : s.check = .ok t ↔ s.Positive ∧ t = s := by
  unfold check
  split
  · exact iff_of_false nofun fun h => h.1.port ‹_›
  split
  · rename_i htime
    exact iff_of_false nofun fun h => htime.elim h.1.connectTimeout h.1.readTimeout
  split
  · exact iff_of_false nofun fun h => h.1.maxReply ‹_›
  rename_i hport htime hsize
  obtain ⟨hconnect, hread⟩ := not_or.1 htime
  exact ⟨fun h => ⟨⟨hport, hconnect, hread, hsize⟩, (Except.ok.inj h).symm⟩, fun h => h.2 ▸ rfl⟩

theorem positive_default : ({} : Settings).Positive :=
  ⟨by decide, by decide, by decide, by decide⟩

theorem positive_under (hs : s.Positive) : (s.under l).Positive ↔ l.Positive := by
  have hport := getD_ne_iff (o := l.port) hs.port
  have hconnect := getD_ne_iff (o := l.connectTimeout) hs.connectTimeout
  have hread := getD_ne_iff (o := l.readTimeout) hs.readTimeout
  have hsize := getD_ne_iff (o := l.maxReply) hs.maxReply
  exact ⟨fun h => ⟨hport.1 h.port, hconnect.1 h.connectTimeout, hread.1 h.readTimeout,
      hsize.1 h.maxReply⟩,
    fun h => ⟨hport.2 h.port, hconnect.2 h.connectTimeout, hread.2 h.readTimeout,
      hsize.2 h.maxReply⟩⟩

theorem Positive.under (hs : s.Positive) (hl : l.Positive) : (s.under l).Positive :=
  (positive_under hs).2 hl

/-- over good settings, only the layer itself can fail the check -/
theorem overlay_eq_ok (hs : s.Positive) : s.overlay l = .ok t ↔ l.Positive ∧ t = s.under l := by
  rw [overlay, check_eq_ok, positive_under hs]

theorem ofLayers_eq_ok : ofLayers file value? flags = .ok s ↔
    ∃ environment, Layer.ofVariables value? = .ok environment ∧ file.Positive ∧
      environment.Positive ∧ flags.Positive ∧
      s = ((({} : Settings).under file).under environment).under flags := by
  constructor
  · intro h
    obtain ⟨s₁, hfirst, h⟩ := bind_eq_ok.1 h
    obtain ⟨environment, hvariables, h⟩ := bind_eq_ok.1 h
    obtain ⟨s₂, hsecond, hthird⟩ := bind_eq_ok.1 h
    obtain ⟨hfile, rfl⟩ := (overlay_eq_ok positive_default).1 hfirst
    have hpositive := positive_default.under hfile
    obtain ⟨henvironment, rfl⟩ := (overlay_eq_ok hpositive).1 hsecond
    obtain ⟨hflags, rfl⟩ := (overlay_eq_ok (hpositive.under henvironment)).1 hthird
    exact ⟨environment, hvariables, hfile, henvironment, hflags, rfl⟩
  · rintro ⟨environment, hvariables, hfile, henvironment, hflags, rfl⟩
    have hpositive := positive_default.under hfile
    refine bind_eq_ok.2 ⟨_, (overlay_eq_ok positive_default).2 ⟨hfile, rfl⟩, ?_⟩
    refine bind_eq_ok.2 ⟨environment, hvariables, ?_⟩
    refine bind_eq_ok.2 ⟨_, (overlay_eq_ok hpositive).2 ⟨henvironment, rfl⟩, ?_⟩
    exact (overlay_eq_ok (hpositive.under henvironment)).2 ⟨hflags, rfl⟩

end Settings

/-! ## environment variables -/

/-- what an optional text supplies: nothing if it is absent, and else what it spells -/
inductive Supplied {α : Type} (spells : String → α → Prop) : Option String → Option α → Prop where
  | absent : Supplied spells none none
  | present {text : String} {a : α} (h : spells text a) : Supplied spells (some text) (some a)

/-- the layer that environment variables supply; only around a time may there be blanks -/
structure Layer.FromVariables (value? : String → Option String) (l : Layer) : Prop where
  port : Supplied (fun text n => Text.Spells text n.toNat) (value? "TKEY_PORT") l.port
  connectTimeout : Supplied (fun text n => Text.Spells (Text.trim text) n.toNat)
    (value? "TKEY_CONNECT_TIMEOUT_MS") l.connectTimeout
  readTimeout : Supplied (fun text n => Text.Spells (Text.trim text) n.toNat)
    (value? "TKEY_READ_TIMEOUT_MS") l.readTimeout
  maxReply : l.maxReply = none

namespace Layer

theorem portOf_eq_ok {text : String} {n : UInt16} :
    portOf text = .ok n ↔ Text.Spells text n.toNat := by
  rw [portOf, ← Text.unsigned16?_eq_some_iff]
  cases Text.unsigned16? text with
  | none => exact iff_of_false nofun nofun
  | some m => exact ⟨fun h => congrArg some (Except.ok.inj h), fun h => congrArg _ (Option.some.inj h)⟩

theorem timeOf_eq_ok {text : String} {n : UInt64} :
    timeOf text = .ok n ↔ Text.Spells (Text.trim text) n.toNat := by
  rw [timeOf, ← Text.unsigned64?_eq_some_iff]
  cases Text.unsigned64? (Text.trim text) with
  | none => exact iff_of_false nofun nofun
  | some m => exact ⟨fun h => congrArg some (Except.ok.inj h), fun h => congrArg _ (Option.some.inj h)⟩

theorem optional_eq_ok {α : Type} {read : String → Except SettingsError α}
    {spells : String → α → Prop} (h : ∀ {text a}, read text = .ok a ↔ spells text a)
    {text? : Option String} {a? : Option α} :
    optional read text? = .ok a? ↔ Supplied spells text? a? := by
  cases text? with
  | none =>
    constructor
    · rintro ⟨⟩
      exact .absent
    · rintro ⟨⟩
      rfl
  | some text =>
    constructor
    · intro hread
      rw [optional] at hread
      cases htext : read text with
      | error e => simp [htext, Except.map] at hread
      | ok a =>
        rw [htext] at hread
        obtain rfl := Except.ok.inj hread
        exact .present (h.1 htext)
    · rintro (_ | hspells)
      rw [optional, h.2 hspells]
      rfl

theorem ofVariables_eq_ok {value? : String → Option String} {l : Layer} :
    ofVariables value? = .ok l ↔ l.FromVariables value? := by
  constructor
  · intro h
    obtain ⟨port, hport, h⟩ := bind_eq_ok.1 h
    obtain ⟨connectTimeout, hconnect, h⟩ := bind_eq_ok.1 h
    obtain ⟨readTimeout, hread, h⟩ := bind_eq_ok.1 h
    obtain rfl := pure_eq_ok.1 h
    exact ⟨(optional_eq_ok portOf_eq_ok).1 hport, (optional_eq_ok timeOf_eq_ok).1 hconnect,
      (optional_eq_ok timeOf_eq_ok).1 hread, rfl⟩
  · intro h
    refine bind_eq_ok.2 ⟨l.port, (optional_eq_ok portOf_eq_ok).2 h.port, ?_⟩
    refine bind_eq_ok.2 ⟨l.connectTimeout, (optional_eq_ok timeOf_eq_ok).2 h.connectTimeout, ?_⟩
    refine bind_eq_ok.2 ⟨l.readTimeout, (optional_eq_ok timeOf_eq_ok).2 h.readTimeout, ?_⟩
    rw [pure_eq_ok, ← h.maxReply]

end Layer

/-! ## the command line -/

namespace CommandLine

/-- the layer that a file supplies, if one is named, for a decoder of the texts of files -/
inductive FromFile (decode : String → Except SettingsError Layer)
    (read : String → Except String String) : Option String → Layer → Prop where
  | unnamed : FromFile decode read none {}
  | named {path text : String} {l : Layer} (hread : read path = .ok text)
    (hdecode : decode text = .ok l) : FromFile decode read (some path) l

/-- settings each of which comes from the highest layer that supplies it: the command line, whose one
time serves for two settings, the environment, the file, or the defaults -/
structure Topmost (c : CommandLine) (environment file : Layer) (s : Settings) : Prop where
  port : s.port = (c.port.or (environment.port.or file.port)).getD 53
  connectTimeout : s.connectTimeout =
    (c.timeout.or (environment.connectTimeout.or file.connectTimeout)).getD 2000
  readTimeout : s.readTimeout =
    (c.timeout.or (environment.readTimeout.or file.readTimeout)).getD 2000
  maxReply : s.maxReply = file.maxReply.getD 65535

variable {c : CommandLine} {decode : String → Except SettingsError Layer}
  {read : String → Except String String} {value? : String → Option String}
  {file environment : Layer} {s : Settings}

theorem fileLayer_eq_ok :
    c.fileLayer decode read = .ok file ↔ FromFile decode read c.config file := by
  rw [fileLayer]
  cases c.config with
  | none =>
    constructor
    · rintro ⟨⟩
      exact .unnamed
    · rintro ⟨⟩
      rfl
  | some path =>
    dsimp only
    constructor
    · intro h
      cases hread : read path with
      | error reason =>
        rw [hread] at h
        cases h
      | ok text =>
        rw [hread] at h
        exact .named hread h
    · rintro (_ | ⟨hread, hdecode⟩)
      rw [hread]
      exact hdecode

theorem flags_positive : c.flags.Positive ↔ c.port ≠ some 0 ∧ c.timeout ≠ some 0 :=
  ⟨fun h => ⟨h.port, h.connectTimeout⟩, fun h => ⟨h.1, h.2, h.2, nofun⟩⟩

theorem topmost_under (h : environment.maxReply = none) :
    c.Topmost environment file (((({} : Settings).under file).under environment).under c.flags) where
  port := by simp only [Settings.under, flags, Option.getD_or]
  connectTimeout := by simp only [Settings.under, flags, Option.getD_or]
  readTimeout := by simp only [Settings.under, flags, Option.getD_or]
  maxReply := by simp only [Settings.under, flags, h, Option.getD_none]

theorem settingsBy_eq_ok : c.settingsBy decode read value? = .ok s ↔
    ∃ file environment, FromFile decode read c.config file ∧ environment.FromVariables value? ∧
      file.Positive ∧ environment.Positive ∧ c.flags.Positive ∧
      s = ((({} : Settings).under file).under environment).under c.flags := by
  simp only [settingsBy, bind_eq_ok, fileLayer_eq_ok, Settings.ofLayers_eq_ok,
    Layer.ofVariables_eq_ok, exists_and_left]

/-- **the settings of a command line pass the check and come from its highest layers, and there are
settings just if each layer is good on its own**, for any decoder of files; the one that runs is
`Layer.ofFile` -/
theorem settings_layered (c : CommandLine) (decode : String → Except SettingsError Layer)
    (read : String → Except String String) (value? : String → Option String) :
    (∀ s, c.settingsBy decode read value? = .ok s → s.check = .ok s ∧
      ∃ file environment, FromFile decode read c.config file ∧ environment.FromVariables value? ∧
        c.Topmost environment file s) ∧
    ((∃ s, c.settingsBy decode read value? = .ok s) ↔
      (∃ file, FromFile decode read c.config file ∧ file.Positive) ∧
      (∃ environment : Layer, environment.FromVariables value? ∧ environment.Positive) ∧
      c.port ≠ some 0 ∧ c.timeout ≠ some 0) ∧
    c.settings read value? = c.settingsBy Layer.ofFile read value? := by
  refine ⟨?_, ?_, rfl⟩
  · intro s h
    obtain ⟨file, environment, hfile, hvariables, hpfile, hpenv, hpflags, rfl⟩ :=
      settingsBy_eq_ok.1 h
    have hpositive := ((Settings.positive_default.under hpfile).under hpenv).under hpflags
    exact ⟨Settings.check_eq_ok.2 ⟨hpositive, rfl⟩, file, environment, hfile, hvariables,
      topmost_under hvariables.maxReply⟩
  · rw [← flags_positive]
    constructor
    · rintro ⟨s, h⟩
      obtain ⟨file, environment, hfile, hvariables, hpfile, hpenv, hpflags, -⟩ :=
        settingsBy_eq_ok.1 h
      exact ⟨⟨file, hfile, hpfile⟩, ⟨environment, hvariables, hpenv⟩, hpflags⟩
    · rintro ⟨⟨file, hfile, hpfile⟩, ⟨environment, hvariables, hpenv⟩, hpflags⟩
      exact ⟨_, settingsBy_eq_ok.2
        ⟨file, environment, hfile, hvariables, hpfile, hpenv, hpflags, rfl⟩⟩

/-- a command line with a file of settings -/
def configured : CommandLine := { server := "ns1", keyName := "k.", config := some "client.toml" }

/-- three layers, none of which supplies everything, and a variable that a flag would cover -/
theorem settings_layered_configured :
    let read := fun _ => .ok "port = 8053\nread_timeout_ms = 700\nmax_response_size = 0x1000"
    let ported := { configured with port := some 10053 }
    let timed := { configured with timeout := some 250 }
    (∃ file environment, FromFile Layer.ofFile read ported.config file ∧
      environment.FromVariables (fun name =>
        if name = "TKEY_CONNECT_TIMEOUT_MS" then some " +600 " else none) ∧
      ported.Topmost environment file ⟨10053, 600, 700, 4096⟩) ∧
    ¬ ∃ s, timed.settings read (fun name =>
      if name = "TKEY_READ_TIMEOUT_MS" then some "soon" else none) = .ok s := by
  intro read ported timed
  refine ⟨((settings_layered ported Layer.ofFile read _).1 _ (by rfl)).2, fun h => ?_⟩
  obtain ⟨-, hsome, hruns⟩ := settings_layered timed Layer.ofFile read _
  rw [hruns] at h
  obtain ⟨-, ⟨⟨port, connectTimeout, readTimeout, maxReply⟩, hvariables, -⟩, -⟩ := hsome.1 h
  obtain _ | hspells := hvariables.readTimeout
  have hnone : Text.unsigned64? (Text.trim "soon") = none := by decide
  rw [Text.unsigned64?_eq_some_iff.2 hspells] at hnone
  cases hnone

end CommandLine

end TransactionKey
