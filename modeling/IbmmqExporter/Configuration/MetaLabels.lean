/-
  Configuration/MetaLabels.lean --- the metadata of the configuration as labels.

  `add_meta_labels` writes the tags of the configuration over the labels of a
  measurement.  The tags are texts of the file; `validate` asks for no more than that
  there are as many values.

  WHAT THE FILE PROVES.  The labels of every measurement keep their values, and series of
  a family stay apart, exactly if no tag is the name of a label whose values vary, and a
  tag that is the name of one of the three others has the value of that label.
-/
import IbmmqExporter.Configuration.Config
import IbmmqExporter.Foundation.Overlay
import IbmmqExporter.Metrics.Measurements

set_option autoImplicit false

namespace IbmmqExporter.Configuration

open Foundation Pcf
open Metrics (Family LabelName Measurement Origin label)

/-! ## Names as texts -/

/-- `std::map<std::string, std::string>`. -/
abbrev LabelMap : Type := Finmap fun _ : Bytes => Bytes

/-- The text of a name. -/
def nameText (n : LabelName) : Bytes := ascii n.val

/-- Labels under their texts. -/
def texts (entries : List (LabelName × Bytes)) : List (Bytes × Bytes) :=
  entries.map fun e => (nameText e.1, e.2)

/-- The characters of a valid name are bytes. -/
theorem toNat_lt_of_valid {s : String} (h : Metrics.validLabelName s = true) :
    ∀ c ∈ s.toList, c.toNat < 256 := by
  have hletter (c : Char) (hc : c.isAlpha = true ∨ c = '_' ∨ c.isDigit = true) :
      c.toNat < 256 := by
    rcases hc with hc | rfl | hc
    · rcases Bool.or_eq_true_iff.mp hc with hc | hc
      · have hupper : c.val ≤ 'Z'.val := (of_decide_eq_true hc).2
        exact (UInt32.le_iff_toNat_le.mp hupper).trans_lt (by decide)
      · have hlower : c.val ≤ 'z'.val := of_decide_eq_true (Bool.and_eq_true_iff.mp hc).2
        exact (UInt32.le_iff_toNat_le.mp hlower).trans_lt (by decide)
    · decide
    · simp [Char.isDigit, UInt32.le_iff_toNat_le] at hc
      omega
  unfold Metrics.validLabelName at h
  dsimp only at h
  split at h
  · cases h
  · next c cs hs =>
      simp only [Bool.and_eq_true, List.all_eq_true, Bool.or_eq_true, decide_eq_true_eq] at h
      obtain ⟨⟨hfirst, hrest⟩, -⟩ := h
      rw [hs]
      refine List.forall_mem_cons.mpr ⟨hletter c ?_, fun d hd => hletter d ?_⟩
      · exact hfirst.imp_right Or.inl
      · exact or_assoc.mp (hrest d hd)

/-- The text of bytes is read back from them. -/
theorem chars_ascii {s : String} (h : ∀ c ∈ s.toList, c.toNat < 256) :
    (ascii s).map (fun b => Char.ofNat b.toNat) = s.toList := by
  unfold ascii
  rw [List.map_map]
  refine (List.map_congr_left fun c hc => ?_).trans (List.map_id _)
  show Char.ofNat (UInt8.ofNat c.toNat).toNat = c
  rw [UInt8.toNat_ofNat', Nat.mod_eq_of_lt (h c hc), Char.ofNat_toNat]

theorem nameText_injective : Function.Injective nameText := by
  intro n m h
  apply Subtype.ext
  apply String.toList_injective
  rw [← chars_ascii (toNat_lt_of_valid n.2), ← chars_ascii (toNat_lt_of_valid m.2)]
  exact congrArg _ h

theorem lookup_texts (entries : List (LabelName × Bytes)) (n : LabelName) :
    (texts entries).lookup (nameText n) = entries.lookup n := by
  induction entries with
  | nil => rfl
  | cons e entries ih =>
      unfold texts at ih ⊢
      rw [List.map_cons, List.lookup_cons, List.lookup_cons, ih]
      by_cases h : n = e.1
      · rw [h, beq_self_eq_true, beq_self_eq_true]
      · rw [beq_false_of_ne h, beq_false_of_ne (nameText_injective.ne h)]

/-! ## What is asked -/

/-- The label map of a measurement. -/
def labelMap (o : Origin) (x : Measurement) : LabelMap := ofEntries (texts (x.entries o))

/-- The tags that have values. -/
def Config.metaEntries (cfg : Config) : List (Bytes × Bytes) :=
  cfg.metadata.metadataTags.zip cfg.metadata.metadataValues

/-- `MetricsCollector::add_meta_labels`. -/
def Config.addMetaLabels (cfg : Config) (ls : LabelMap) : LabelMap := overlay cfg.metaEntries ls

/-- What the label maps take from the configuration. -/
def Config.origin (cfg : Config) (version : Bytes) : Origin :=
  ⟨cfg.mq.queueManager, cfg.mq.channel, version⟩

section Asked

variable (cfg : Config) (version : Bytes)

/-- What is asked: no label of a measurement loses its value, and measurements of one
family whose labels differ are written to different series. -/
structure LabelsSurvive : Prop where
  kept : ∀ x n v, (labelMap (cfg.origin version) x).lookup n = some v →
    (cfg.addMetaLabels (labelMap (cfg.origin version) x)).lookup n = some v
  apart : ∀ (x y : Measurement) (f : Family), x.Writes f → y.Writes f →
    labelMap (cfg.origin version) x ≠ labelMap (cfg.origin version) y →
    cfg.addMetaLabels (labelMap (cfg.origin version) x) ≠
      cfg.addMetaLabels (labelMap (cfg.origin version) y)

/-- The labels whose values vary. -/
def variedLabels : List LabelName :=
  [Metrics.queueManagerLabel, Metrics.queueNameLabel, Metrics.applicationNameLabel,
   Metrics.sourceIpLabel, Metrics.roleLabel, Metrics.userIdentifierLabel,
   Metrics.openModeLabel, Metrics.processIdLabel, Metrics.useridLabel, Metrics.pidLabel,
   Metrics.channelLabel, Metrics.appltagLabel, Metrics.connameLabel,
   Metrics.applicationTagLabel, Metrics.connectionNameLabel, Metrics.channelNameLabel,
   Metrics.platformLabel, Metrics.typeLabel, Metrics.rqmnameLabel, Metrics.connnameLabel,
   Metrics.jobnameLabel, Metrics.sslciphLabel, Metrics.subscriptionLabel, Metrics.subidLabel,
   Metrics.topicLabel, Metrics.descriptionLabel, Metrics.clusterLabel, Metrics.qmtypeLabel,
   Metrics.bufferpoolLabel, Metrics.locationLabel, Metrics.pageclassLabel,
   Metrics.pagesetLabel, Metrics.scopeLabel .queue]

/-- The others, each with the value that it has wherever it is. -/
def fixedLabels (o : Origin) : List (LabelName × Bytes) :=
  [(Metrics.qmgrLabel, o.queueManager), (Metrics.handleStateLabel, ascii "Open"),
   (Metrics.collectorVersionLabel, o.version)]

/-- No tag is the name of a label whose values vary, and one that is the name of another
has the value of that label. -/
structure TagsFresh : Prop where
  varied : ∀ n ∈ variedLabels, lastValue cfg.metaEntries (nameText n) = none
  fixed : ∀ e ∈ fixedLabels (cfg.origin version), ∀ v,
    lastValue cfg.metaEntries (nameText e.1) = some v → v = e.2

end Asked

/-! ## The labels of the measurements -/

/-- A label varies or is fixed. -/
theorem mem_labels (o : Origin) (x : Measurement) : ∀ e ∈ x.entries o,
    e.1 ∈ variedLabels ∨ e ∈ fixedLabels o := by
  have hqmgr : (Metrics.qmgrLabel, o.queueManager) ∈ fixedLabels o := List.mem_cons_self
  cases x with
  | publication plat pm =>
      have hscope (s : Metrics.Scope) : Metrics.scopeLabel s ∈ variedLabels := by
        cases s <;> decide
      simp only [Measurement.entries, List.forall_mem_cons]
      exact ⟨.inr hqmgr, .inl (by decide), .inl (hscope _), List.forall_mem_nil _⟩
  | _ =>
      simp only [Measurement.entries, List.forall_mem_cons]
      repeat' apply And.intro
      all_goals
        first
        | exact .inl (by decide)
        | exact .inr (by simp [fixedLabels])
        | exact List.forall_mem_nil _

/-- The fixed labels of a family's series. -/
def fixedEntries (o : Origin) : Family → List (LabelName × Bytes)
  | .collectionInfo => [(Metrics.collectorVersionLabel, o.version)]
  | .queueHandleInfo => [(Metrics.handleStateLabel, ascii "Open")]
  | .queueDepth | .queueHighDepth | .queueEnqueue | .queueDequeue | .queueReaders
  | .queueWriters | .queueProcess | .queueProcessDetail | .queueInputHandles
  | .queueOutputHandles | .channelMessages | .channelBytes | .channelBatches
  | .queueAppPuts | .queueAppGets | .queueAppMsgsReceived | .queueAppMsgsSent
  | .mqiCounter _ | .mqiTotal _ | .queueMaxDepth | .queueOldestMsgAge
  | .queueUncommittedMsgs | .queueQtimeShort | .queueQtimeLong | .queueQfileCurrentSize
  | .queueQfileMaxSize | .lastCollectionTime => []
  | _ => [(Metrics.qmgrLabel, o.queueManager)]

/-- A family decides which of the fixed labels its series have. -/
theorem lookup_fixed (o : Origin) (x : Measurement) :
    ∀ f, x.Writes f → ∀ e ∈ fixedLabels o,
      (x.entries o).lookup e.1 = (fixedEntries o f).lookup e.1 := by
  simp only [fixedLabels, List.forall_mem_cons]
  have hnil {p : LabelName × Bytes → Prop} := List.forall_mem_nil p
  cases x with
  | queueHandles reporter queueName proc =>
      rintro f rfl
      cases proc.role <;> exact ⟨rfl, rfl, rfl, hnil⟩
  | publication plat pm =>
      rintro f ⟨name, rfl⟩
      dsimp only [Measurement.entries]
      cases Metrics.scopeOf pm <;> exact ⟨rfl, rfl, rfl, hnil⟩
  | mqi =>
      rintro f (⟨c, rfl⟩ | ⟨t, rfl⟩)
      · exact ⟨rfl, rfl, rfl, hnil⟩
      · exact ⟨rfl, rfl, rfl, hnil⟩
  | operations =>
      rintro f ⟨c, rfl⟩
      exact ⟨rfl, rfl, rfl, hnil⟩
  | collection | queueProcess | queueHandleInfo | queueProcessDetail | timestamp =>
      rintro f rfl
      exact ⟨rfl, rfl, rfl, hnil⟩
  | _ =>
      simp only [Measurement.Writes, List.forall_mem_cons]
      repeat' apply And.intro
      all_goals first | rfl | exact List.forall_mem_nil _

/-- Two measurements of a kind that have no value in common. -/
def twins : List (Measurement × Measurement) :=
  let a := ascii "A"
  let b := ascii "B"
  let input : ProcInfo :=
    { role := .input, processId := 1, applicationName := a, applicationTag := a
      userIdentifier := a, connectionName := a, channelName := a }
  let output : ProcInfo :=
    { role := .output, processId := 2, applicationName := b, applicationTag := b
      userIdentifier := b, connectionName := b, channelName := b }
  let about (queue : Bytes) : Monitor.PublicationMetric :=
    { className := [], typeName := [], objectName := queue, metricName := [], value := 0
      isDelta := false }
  [(.queueProcess a a input, .queueProcess b b output),
   (.queueHandleInfo a a input, .queueHandleInfo b b output),
   (.queueProcessDetail a a input, .queueProcessDetail b b output),
   (.queueHandles a a input, .queueHandles b b output),
   (.mqi a { applicationTag := a, connectionName := a, channelName := a },
    .mqi b { applicationTag := b, connectionName := b, channelName := b }),
   (.channel 3
      { channelName := a, channelType := 1, remoteQmgr := a, connectionName := a
        jobName := a, sslCipher := a },
    .channel 1
      { channelName := b, channelType := 2, remoteQmgr := b, connectionName := b
        jobName := b, sslCipher := b }),
   (.sub 3 { subName := a, subId := a, topicString := a },
    .sub 1 { subName := b, subId := b, topicString := b }),
   (.qmgr 3 a, .qmgr 1 b),
   (.cluster 3 { clusterName := a, qmType := 1 }, .cluster 1 { clusterName := b, qmType := 2 }),
   (.usageBp 3 { bufferPool := 1, location := 1, pageClass := 1 },
    .usageBp 1 { bufferPool := 2, location := 2, pageClass := 2 }),
   (.usagePs 3 { pagesetId := 1 }, .usagePs 1 { pagesetId := 2 }),
   (.publication 3 (about a), .publication 1 (about b))]

/-- The two have the label with different values. -/
def differ (o : Origin) (n : LabelName) (p : Measurement × Measurement) : Bool :=
  match (p.1.entries o).lookup n, (p.2.entries o).lookup n with
  | some v, some v' => v != v'
  | _, _ => false

theorem twins_differ (o : Origin) : (variedLabels.all fun n => twins.any (differ o n)) = true :=
  rfl

theorem lookup_labelMap (o : Origin) (x : Measurement) (n : LabelName) :
    (labelMap o x).lookup (nameText n) = (x.entries o).lookup n :=
  (lookup_ofEntries _ _).trans (lookup_texts _ _)

/-- What a label map holds are labels of the measurement. -/
theorem exists_label {o : Origin} {x : Measurement} {a b : Bytes}
    (h : (labelMap o x).lookup a = some b) : ∃ e ∈ x.entries o, nameText e.1 = a ∧ e.2 = b := by
  unfold labelMap at h
  rw [lookup_ofEntries] at h
  obtain ⟨before, behind, htexts, -⟩ := List.lookup_eq_some_iff.mp h
  have hmem : (a, b) ∈ texts (x.entries o) := by
    rw [htexts]
    simp
  obtain ⟨e, he, heq⟩ := List.mem_map.mp hmem
  exact ⟨e, he, congrArg Prod.fst heq, congrArg Prod.snd heq⟩

/-! ## Which tags do no harm -/

section Harmless

variable {cfg : Config} {version : Bytes}

/-- Fresh tags leave the labels their values. -/
theorem TagsFresh.keeps (h : TagsFresh cfg version) (x : Measurement) :
    Keeps cfg.metaEntries (labelMap (cfg.origin version) x) := by
  rw [keeps_iff]
  intro a b b' hb hb'
  obtain ⟨e, he, rfl, rfl⟩ := exists_label hb
  rcases mem_labels _ x e he with hvaried | hfixed
  · rw [h.varied _ hvaried] at hb'
    cases hb'
  · exact h.fixed e hfixed b' hb'

/-- Under a fresh tag, measurements of a family have the same label or none. -/
theorem TagsFresh.lookup_eq (h : TagsFresh cfg version) {x y : Measurement} {f : Family}
    (hx : x.Writes f) (hy : y.Writes f) {a v : Bytes}
    (ha : lastValue cfg.metaEntries a = some v) :
    (labelMap (cfg.origin version) x).lookup a = (labelMap (cfg.origin version) y).lookup a := by
  by_cases hname : ∃ e ∈ fixedLabels (cfg.origin version), nameText e.1 = a
  · obtain ⟨e, he, rfl⟩ := hname
    rw [lookup_labelMap, lookup_labelMap, lookup_fixed _ x f hx e he, lookup_fixed _ y f hy e he]
  · have hnone (z : Measurement) : (labelMap (cfg.origin version) z).lookup a = none := by
      by_contra hsome
      obtain ⟨b, hb⟩ := Option.ne_none_iff_exists'.mp hsome
      obtain ⟨e, he, hea, -⟩ := exists_label hb
      rcases mem_labels _ z e he with hvaried | hfixed
      · rw [← hea, h.varied _ hvaried] at ha
        cases ha
      · exact hname ⟨e, hfixed, hea⟩
    rw [hnone x, hnone y]

/-- A label that varies keeps its value only if no tag is its name. -/
theorem lastValue_of_keeps
    (h : ∀ x, Keeps cfg.metaEntries (labelMap (cfg.origin version) x)) {n : LabelName}
    (hn : n ∈ variedLabels) : lastValue cfg.metaEntries (nameText n) = none := by
  obtain ⟨p, -, hp⟩ := List.any_eq_true.mp
    (List.all_eq_true.mp (twins_differ (cfg.origin version)) n hn)
  unfold differ at hp
  split at hp
  · next v v' hv hv' =>
      by_contra hsome
      obtain ⟨w, hw⟩ := Option.ne_none_iff_exists'.mp hsome
      have heq := keeps_iff.mp (h p.1) _ _ w ((lookup_labelMap _ _ n).trans hv) hw
      have heq' := keeps_iff.mp (h p.2) _ _ w ((lookup_labelMap _ _ n).trans hv') hw
      exact bne_iff_ne.mp hp (heq.symm.trans heq')
  · cases hp

/-- The labels survive if and only if the tags are fresh. -/
theorem labelsSurvive_iff (cfg : Config) (version : Bytes) :
    LabelsSurvive cfg version ↔ TagsFresh cfg version := by
  constructor
  · intro h
    have hfixed (x : Measurement) {n : LabelName} {b : Bytes}
        (hx : (x.entries (cfg.origin version)).lookup n = some b) (v : Bytes)
        (hv : lastValue cfg.metaEntries (nameText n) = some v) : v = b :=
      keeps_iff.mp (h.kept x) _ b v ((lookup_labelMap _ _ n).trans hx) hv
    refine ⟨fun n hn => lastValue_of_keeps h.kept hn, ?_⟩
    unfold fixedLabels
    simp only [List.forall_mem_cons]
    refine ⟨hfixed (.qmgr 3 []) rfl, hfixed (.queueHandleInfo [] [] {}) rfl,
      hfixed (.collection 3) rfl, List.forall_mem_nil _⟩
  · intro h
    refine ⟨fun x => h.keeps x, fun x y f hx hy hne heq => hne ?_⟩
    refine Finmap.ext_lookup fun a => ?_
    cases hlast : lastValue cfg.metaEntries a with
    | none => exact overlay_inj_iff.mp heq a hlast
    | some v => exact h.lookup_eq hx hy hlast

end Harmless

/-! ## The metrics collector with the configuration -/

/-- The configuration of the metrics collector is that of the program, and its tags are
valid names. -/
structure Configures (cfg : Config) (version : Bytes) (m : Metrics.Config) : Prop where
  origin : m.origin = cfg.origin version
  tags : m.metadataTags.map nameText = cfg.metadata.metadataTags
  values : m.metadataValues = cfg.metadata.metadataValues

/-- The series of the metrics collector have the labels of the label maps. -/
theorem lookup_series {cfg : Config} {version : Bytes} {m : Metrics.Config}
    (h : Configures cfg version m) (x : Measurement) (n : LabelName) :
    (m.series x).lookup n =
      (cfg.addMetaLabels (labelMap (cfg.origin version) x)).lookup (nameText n) := by
  have hentries : cfg.metaEntries = texts (m.metadataTags.zip m.metadataValues) := by
    unfold Config.metaEntries texts
    rw [← h.tags, ← h.values, List.zip_map_left]
    rfl
  have hlast : lastValue cfg.metaEntries (nameText n) =
      lastValue (m.metadataTags.zip m.metadataValues) n := by
    unfold lastValue
    rw [hentries, ← lookup_texts _ n]
    unfold texts
    rw [List.map_reverse]
  have hseries : m.series x =
      overlay (m.metadataTags.zip m.metadataValues) (ofEntries (x.entries m.origin)) := rfl
  unfold Config.addMetaLabels
  rw [hseries, lookup_overlay, lookup_overlay, hlast, lookup_labelMap, lookup_ofEntries, h.origin]

/-! ## A tag for the channels -/

/-- A configuration with a tag `channel`. -/
def channelTagged : Config :=
  { mq := { queueManager := ascii "QM1" }
    metadata :=
      { metadataTags := [nameText Metrics.channelLabel], metadataValues := [ascii "payments"] } }

/-- The status of every channel is written to the series with the value of the tag. -/
theorem not_labelsSurvive_channelTagged :
    ¬ ∀ (cfg : Config) (version : Bytes), cfg.validate = .ok () → LabelsSurvive cfg version := by
  intro h
  have hvalid : channelTagged.validate = .ok () := by decide
  have hkept := (h channelTagged [] hvalid).kept (.channel 3 { channelName := ascii "APP.A" })
    (nameText Metrics.channelLabel) (ascii "APP.A") (lookup_labelMap _ _ _)
  unfold Config.addMetaLabels at hkept
  rw [lookup_overlay] at hkept
  exact absurd hkept (by decide)

end IbmmqExporter.Configuration
