/-
  Configuration/Durations.lean --- durations in a configuration file.

  The files that come with the program give durations in seconds, minutes and hours.
  `parse_duration` scans a number and one character behind it.

  WHAT THE FILE PROVES.  `load_config` makes of a duration the seconds that it says, and
  `run_continuous` then does not rediscover more often, if and only if the duration is
  not one in hours, or is zero (`durations_iff`).
-/
import IbmmqExporter.Collector.Timed
import IbmmqExporter.Configuration.Load
import IbmmqExporter.Foundation.Numeral

set_option autoImplicit false

namespace IbmmqExporter.Configuration

open Foundation

/-! ## Durations -/

/-- The units of the files that come with the program. -/
inductive TimeUnit where
  | seconds
  | minutes
  | hours
  deriving DecidableEq, Repr

namespace TimeUnit

/-- The letter behind the number. -/
def letter : TimeUnit → UInt8
  | seconds => 115
  | minutes => 109
  | hours => 104

/-- The seconds of the unit. -/
def factor : TimeUnit → Nat
  | seconds => 1
  | minutes => 60
  | hours => 3600

end TimeUnit

/-- The text of a duration. -/
def durationText (x : Numeral) (u : TimeUnit) : Bytes := x.text ++ [u.letter]

/-- The keys that hold durations. -/
inductive DurationKey where
  | interval
  | reconnectInterval
  | rediscoverInterval
  deriving DecidableEq, Repr

/-- What the file says under the key. -/
def CollectorSection.text (col : CollectorSection) : DurationKey → Option Bytes
  | .interval => col.interval
  | .reconnectInterval => col.reconnectInterval
  | .rediscoverInterval => col.rediscoverInterval

/-- The seconds in the configuration. -/
def CollectorConfig.seconds (c : CollectorConfig) : DurationKey → Int
  | .interval => c.interval
  | .reconnectInterval => c.reconnectInterval
  | .rediscoverInterval => c.rediscoverInterval

/-- The default that `load_config` gives `parse_duration`. -/
def DurationKey.dflt : DurationKey → Int
  | .interval => 60
  | .reconnectInterval => 5
  | .rediscoverInterval => 0

/-- The text under the key does not overflow an `int`. -/
def Readable (col : CollectorSection) (key : DurationKey) : Prop :=
  ∀ s, col.text key = some s → durationOf s key.dflt ≠ none

/-- Under every key of every file `load_config` takes the duration for what it says. -/
def LoadsAsStated (x : Numeral) (u : TimeUnit) : Prop :=
  ∀ (key : DurationKey) (root : YamlFile) (env : Environment) (col : CollectorSection),
    root.collector = some col → col.text key = some (durationText x u) →
    (∀ other, other ≠ key → Readable col other) →
    ∃ cfg, loadConfig root env = .ok cfg ∧ cfg.collector.seconds key = (x.value * u.factor : Nat)

/-- A collector with the duration for `rediscover_interval` does not rediscover more often
than it says. -/
def RediscoversAsStated (x : Numeral) (u : TimeUnit) : Prop :=
  ∀ (root : YamlFile) (env : Environment) (col : CollectorSection) (cfg : Config)
    (ccfg : Collector.Config), root.collector = some col →
    col.rediscoverInterval = some (durationText x u) → loadConfig root env = .ok cfg →
    ccfg.rediscoverInterval = cfg.collector.rediscoverInterval →
    ∀ (supply : List Mq.Reply) (clock : Nat) (ticks : List Collector.Tick)
      (trace : List (Transition Collector.Timed Collector.Tick)),
      history (Collector.Timed.step ccfg) (Collector.Timed.initial ccfg supply clock) ticks =
        some trace →
      trace.Pairwise fun t t' => Collector.Discovers ccfg t → Collector.Rediscovers ccfg t' →
        t.action.now + x.value * u.factor * Collector.second ≤ t'.action.now

/-! ## Scanning -/

/-- A digit is neither white space nor a sign. -/
theorem digitByte_kind (d : Fin 10) :
    isDigit (Numeral.digitByte d) = true ∧ isSpace (Numeral.digitByte d) = false ∧
      some (Numeral.digitByte d) ≠ (ascii "-").head? ∧
      some (Numeral.digitByte d) ≠ (ascii "+").head? := by
  revert d
  decide

theorem isDigit_text (x : Numeral) : ∀ c ∈ x.text, isDigit c = true := by
  intro c hc
  obtain ⟨d, rfl⟩ := Numeral.exists_of_mem_text hc
  exact (digitByte_kind d).1

theorem isDigit_letter (u : TimeUnit) : isDigit u.letter = false := by
  cases u <;> decide

theorem number_text (x : Numeral) : number x.text = x.value := x.foldl_text

/-- `%d` reads the number and leaves the letter. -/
theorem scanInt_durationText (x : Numeral) (u : TimeUnit) :
    scanInt (durationText x u) = some ((x.value : Int), [u.letter]) := by
  obtain ⟨c, text, htext⟩ := List.exists_cons_of_ne_nil x.text_ne_nil
  obtain ⟨d, rfl⟩ := Numeral.exists_of_mem_text (htext ▸ List.mem_cons_self : c ∈ x.text)
  obtain ⟨-, hspace, hminus, hplus⟩ := digitByte_kind d
  have hhead : (durationText x u).head? = some (Numeral.digitByte d) := by
    rw [durationText, htext]
    rfl
  have hskip : (durationText x u).dropWhile isSpace = durationText x u := by
    rw [durationText, htext, List.cons_append, List.dropWhile_cons_of_neg (by simp [hspace])]
  have htake : (durationText x u).takeWhile isDigit = x.text := by
    rw [durationText, List.takeWhile_append_of_pos (isDigit_text x), List.takeWhile_cons_of_neg,
      List.append_nil]
    simp [isDigit_letter u]
  have hdrop : (durationText x u).dropWhile isDigit = [u.letter] := by
    rw [durationText, List.dropWhile_append_of_pos (isDigit_text x), List.dropWhile_cons_of_neg]
    simp [isDigit_letter u]
  unfold scanInt
  simp only [hskip, hhead, hminus, hplus, or_self, if_false, htake, hdrop, x.text_ne_nil,
    number_text]

/-- What `parse_duration` makes of a duration: the unit `h` is the unit `s`. -/
theorem durationOf_durationText {x : Numeral} {u : TimeUnit}
    (hfits : x.value * u.factor < 2 ^ 31) (dflt : Int) :
    durationOf (durationText x u) dflt =
      some ((x.value * if u = .minutes then 60 else 1 : Nat) : Int) := by
  have hne : durationText x u ≠ [] := List.append_ne_nil_of_right_ne_nil _ (by simp)
  have hfactor : x.value ≤ x.value * u.factor :=
    Nat.le_mul_of_pos_right _ (by cases u <;> decide)
  have hvalue : InInt32 x.value := ⟨by omega, by omega⟩
  unfold durationOf
  rw [if_neg hne, scanInt_durationText]
  dsimp only
  rw [if_neg (not_not.mpr hvalue)]
  cases u with
  | seconds => rw [if_neg (by decide), if_neg (by decide), Nat.mul_one]
  | minutes =>
      have hsixty : x.value * 60 < 2 ^ 31 := hfits
      have hproduct : InInt32 ((x.value : Int) * 60) := ⟨by omega, by omega⟩
      rw [if_pos (by decide), if_pos hproduct, if_pos rfl]
      rfl
  | hours => rw [if_neg (by decide), if_neg (by decide), Nat.mul_one]

/-! ## Loading -/

theorem durationOr_readable {node : Option Bytes} {dflt : Int}
    (h : ∀ s, node = some s → durationOf s dflt ≠ none) (current : Int) :
    ∃ seconds, durationOr node dflt current = .ok seconds ∧
      ∀ s, node = some s → durationOf s dflt = some seconds := by
  cases node with
  | none => exact ⟨current, rfl, fun s hs => by cases hs⟩
  | some s =>
      obtain ⟨seconds, hseconds⟩ := Option.ne_none_iff_exists'.mp (h s rfl)
      refine ⟨seconds, ?_, ?_⟩
      · show parseDuration s dflt = _
        rw [parseDuration, hseconds]
        rfl
      · rintro s' hs'
        rw [← Option.some.inj hs', hseconds]

/-- When the durations of a section can be read, they are what is read. -/
theorem apply_readable {col : CollectorSection} (h : ∀ key, Readable col key)
    (c : CollectorConfig) :
    ∃ c', col.apply c = .ok c' ∧ ∀ key s, col.text key = some s →
      durationOf s key.dflt = some (c'.seconds key) := by
  obtain ⟨interval, hinterval, hintervalRead⟩ :=
    durationOr_readable (h .interval) c.interval
  obtain ⟨reconnect, hreconnect, hreconnectRead⟩ :=
    durationOr_readable (h .reconnectInterval) c.reconnectInterval
  obtain ⟨rediscover, hrediscover, hrediscoverRead⟩ :=
    durationOr_readable (h .rediscoverInterval) c.rediscoverInterval
  obtain ⟨c', hc', hi, hc, hd⟩ : ∃ c', col.apply c = .ok c' ∧ c'.interval = interval ∧
      c'.reconnectInterval = reconnect ∧ c'.rediscoverInterval = rediscover := by
    unfold CollectorSection.apply
    simp only [DurationKey.dflt, CollectorSection.text] at hinterval hreconnect hrediscover
    rw [hinterval, Outcome.ok_bind, hreconnect, Outcome.ok_bind, hrediscover, Outcome.ok_bind]
    exact ⟨_, rfl, rfl, rfl, rfl⟩
  refine ⟨c', hc', ?_⟩
  intro key s hs
  cases key with
  | interval =>
      rw [CollectorConfig.seconds, hi]
      exact hintervalRead s hs
  | reconnectInterval =>
      rw [CollectorConfig.seconds, hc]
      exact hreconnectRead s hs
  | rediscoverInterval =>
      rw [CollectorConfig.seconds, hd]
      exact hrediscoverRead s hs

theorem loadConfig_readable {root : YamlFile} {col : CollectorSection}
    (hcol : root.collector = some col) (h : ∀ key, Readable col key) (env : Environment) :
    ∃ cfg, loadConfig root env = .ok cfg ∧ ∀ key s, col.text key = some s →
      durationOf s key.dflt = some (cfg.collector.seconds key) := by
  obtain ⟨c, hc, hseconds⟩ := apply_readable h defaultConfig.collector
  unfold loadConfig YamlFile.apply
  rw [hcol]
  dsimp only
  rw [hc]
  refine ⟨_, rfl, ?_⟩
  intro key s hs
  rw [hseconds key s hs, Config.withOverrideCType]
  split <;> rfl

theorem readable_of_durationOr {node : Option Bytes} {dflt current seconds : Int}
    (h : durationOr node dflt current = .ok seconds) (s : Bytes) (hs : node = some s) :
    durationOf s dflt ≠ none := by
  subst hs
  intro hnone
  unfold durationOr parseDuration at h
  dsimp only at h
  rw [hnone] at h
  cases h

/-- A configuration is loaded only if the durations can be read. -/
theorem readable_of_loadConfig {root : YamlFile} {env : Environment} {col : CollectorSection}
    {cfg : Config} (hcol : root.collector = some col) (h : loadConfig root env = .ok cfg)
    (key : DurationKey) : Readable col key := by
  unfold loadConfig YamlFile.apply at h
  obtain ⟨applied, happlied, -⟩ := Outcome.bind_eq_ok.mp h
  obtain ⟨collector, hcollector, -⟩ := Outcome.bind_eq_ok.mp happlied
  rw [hcol] at hcollector
  obtain ⟨interval, hinterval, hcollector⟩ := Outcome.bind_eq_ok.mp hcollector
  obtain ⟨reconnect, hreconnect, hcollector⟩ := Outcome.bind_eq_ok.mp hcollector
  obtain ⟨rediscover, hrediscover, -⟩ := Outcome.bind_eq_ok.mp hcollector
  cases key with
  | interval => exact readable_of_durationOr hinterval
  | reconnectInterval => exact readable_of_durationOr hreconnect
  | rediscoverInterval => exact readable_of_durationOr hrediscover

/-! ## What a duration means -/

section Meaning

variable {x : Numeral} {u : TimeUnit}

/-- A file with nothing but the one duration. -/
def fileWith (s : Bytes) : YamlFile := { collector := some { rediscoverInterval := some s } }

theorem readable_of_text {col : CollectorSection} {key : DurationKey}
    (hfits : x.value * u.factor < 2 ^ 31) (htext : col.text key = some (durationText x u))
    (hothers : ∀ other, other ≠ key → Readable col other) (other : DurationKey) :
    Readable col other := by
  by_cases hother : other = key
  · subst hother
    intro s hs
    rw [htext] at hs
    rw [← Option.some.inj hs, durationOf_durationText hfits]
    exact Option.some_ne_none _
  · exact hothers other hother

/-- The duration is loaded as stated if the code has its unit, or it is zero. -/
theorem loadsAsStated_iff (hfits : x.value * u.factor < 2 ^ 31) :
    LoadsAsStated x u ↔ u ≠ .hours ∨ x.value = 0 := by
  have hscale : (x.value * if u = .minutes then 60 else 1) = x.value * u.factor ↔
      u ≠ .hours ∨ x.value = 0 := by
    cases u with
    | seconds => simp [TimeUnit.factor]
    | minutes => simp [TimeUnit.factor]
    | hours =>
        simp only [TimeUnit.factor, reduceCtorEq, if_false, ne_eq, not_true, false_or]
        omega
  rw [← hscale]
  constructor
  · intro h
    have hcol : (fileWith (durationText x u)).collector =
        some { rediscoverInterval := some (durationText x u) } := rfl
    have hothers : ∀ other, other ≠ DurationKey.rediscoverInterval →
        Readable { rediscoverInterval := some (durationText x u) } other := by
      intro other hne s hs
      cases other with
      | interval => cases hs
      | reconnectInterval => cases hs
      | rediscoverInterval => exact absurd rfl hne
    obtain ⟨cfg, hload, hseconds⟩ := h .rediscoverInterval _ (fun _ => none) _ hcol rfl hothers
    obtain ⟨cfg', hload', hread⟩ := loadConfig_readable hcol
      (readable_of_text hfits rfl hothers) fun _ => none
    obtain rfl := Outcome.ok.inj (hload.symm.trans hload')
    have hduration := hread .rediscoverInterval _ rfl
    rw [durationOf_durationText hfits, hseconds] at hduration
    exact Int.ofNat_inj.mp (Option.some.inj hduration)
  · intro hscale key root env col hcol htext hothers
    obtain ⟨cfg, hload, hread⟩ :=
      loadConfig_readable hcol (readable_of_text hfits htext hothers) env
    refine ⟨cfg, hload, ?_⟩
    have hduration := hread key _ htext
    rw [durationOf_durationText hfits, hscale] at hduration
    exact (Option.some.inj hduration).symm

/-- A duration that is loaded as stated keeps the rediscoveries apart. -/
theorem rediscoversAsStated (h : LoadsAsStated x u) : RediscoversAsStated x u := by
  intro root env col cfg ccfg hcol htext hload hccfg supply clock ticks trace hrun
  obtain ⟨cfg', hload', hseconds⟩ := h .rediscoverInterval root env col hcol htext
    fun other _ => readable_of_loadConfig hcol hload other
  obtain rfl := Outcome.ok.inj (hload.symm.trans hload')
  have hinterval : ccfg.rediscoverInterval.toNat = x.value * u.factor := by
    rw [hccfg]
    exact congrArg Int.toNat hseconds
  have hapart := Collector.rediscoveries_apart hrun
  rw [hinterval] at hapart
  exact hapart

/-- A duration means what it says, for `load_config` and for `run_continuous`, if and only if
it is not one in hours, or is zero. -/
theorem durations_iff (hfits : x.value * u.factor < 2 ^ 31) :
    (LoadsAsStated x u ∧ RediscoversAsStated x u) ↔ (u ≠ .hours ∨ x.value = 0) := by
  rw [← loadsAsStated_iff hfits]
  exact and_iff_left_of_imp rediscoversAsStated

theorem durations_iff_minutes :
    (LoadsAsStated ⟨[5], by decide⟩ .minutes ∧ RediscoversAsStated ⟨[5], by decide⟩ .minutes) ↔
      (TimeUnit.minutes ≠ .hours ∨ (⟨[5], by decide⟩ : Numeral).value = 0) :=
  durations_iff (by decide)

/-- One hour is taken for a second. -/
theorem not_durations_hour :
    ¬ (LoadsAsStated ⟨[1], by decide⟩ .hours ∧ RediscoversAsStated ⟨[1], by decide⟩ .hours) := by
  rintro ⟨hloads, -⟩
  rw [loadsAsStated_iff (by decide)] at hloads
  exact absurd hloads (by decide)

end Meaning

end IbmmqExporter.Configuration
