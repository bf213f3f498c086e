/-
  Metrics/Exposition.lean --- the names under which the gauges are exposed.

  `init_metrics` registers a family of gauges for each field of `MetricsCollector`, and
  `collect_publication_metrics` one for each name of an element.  A family is exposed
  under its name behind the prefix of the configuration.

  WHAT THE FILE PROVES.  Behind one prefix the families have different names
  (`exposedName_injective`).  The labels of a measurement have the names that its families
  ask for (`names_mem_schemas`).
-/
import Mathlib.Tactic.FinCases
import IbmmqExporter.Metrics.Measurements
import IbmmqExporter.Monitor.MetricNames

set_option autoImplicit false

/-! ## Names -/

namespace IbmmqExporter.Pcf

open Foundation

/-- The name of a number in `mqi_metrics_`. -/
def MqiCounter.metricName : MqiCounter → Bytes
  | .opens => ascii "opens"
  | .closes => ascii "closes"
  | .puts => ascii "puts"
  | .gets => ascii "gets"
  | .commits => ascii "commits"
  | .backouts => ascii "backouts"
  | .browses => ascii "browses"
  | .inqs => ascii "inqs"
  | .sets => ascii "sets"
  | .discCloseTimeout => ascii "disc_close_timeout"
  | .discResetTimeout => ascii "disc_reset_timeout"
  | .fails => ascii "fails"
  | .incompleteBatch => ascii "incomplete_batch"
  | .incompleteMsg => ascii "incomplete_msg"
  | .waitInterval => ascii "wait_interval"
  | .syncpointHeuristic => ascii "syncpoint_heuristic"
  | .heaps => ascii "heaps"
  | .logicalConnections => ascii "logical_connections"
  | .physicalConnections => ascii "physical_connections"
  | .currentConns => ascii "current_conns"
  | .persistentMsgs => ascii "persistent_msgs"
  | .nonPersistentMsgs => ascii "non_persistent_msgs"
  | .longMsgs => ascii "long_msgs"
  | .shortMsgs => ascii "short_msgs"
  | .stampEnabled => ascii "stamp_enabled"
  | .msgsReceived => ascii "msgs_received"
  | .msgsSent => ascii "msgs_sent"
  | .channelStatus => ascii "channel_status"
  | .channelType => ascii "channel_type"
  | .channelErrors => ascii "channel_errors"
  | .channelDiscCount => ascii "channel_disc_count"
  | .fullBatches => ascii "full_batches"
  | .partialBatches => ascii "partial_batches"

/-- The same of a 64-bit number. -/
def MqiTotal.metricName : MqiTotal → Bytes
  | .queueTime => ascii "queue_time"
  | .queueTimeMax => ascii "queue_time_max"
  | .elapsedTime => ascii "elapsed_time"
  | .elapsedTimeMax => ascii "elapsed_time_max"
  | .connTime => ascii "conn_time"
  | .connTimeMax => ascii "conn_time_max"
  | .bytesReceived => ascii "bytes_received"
  | .bytesSent => ascii "bytes_sent"
  | .backoutCount => ascii "backout_count"
  | .commitsCount => ascii "commits_count"
  | .rollbackCount => ascii "rollback_count"

end IbmmqExporter.Pcf

namespace IbmmqExporter.Metrics

open Foundation Pcf

/-- What stands behind the prefix in the name of a family. -/
def Family.metricName : Family → Bytes
  | .queueDepth => ascii "_queue_depth"
  | .queueHighDepth => ascii "_queue_depth_high"
  | .queueEnqueue => ascii "_queue_enqueue_count"
  | .queueDequeue => ascii "_queue_dequeue_count"
  | .queueInputHandles => ascii "_queue_input_handles"
  | .queueOutputHandles => ascii "_queue_output_handles"
  | .queueReaders => ascii "_queue_has_readers"
  | .queueWriters => ascii "_queue_has_writers"
  | .queueProcess => ascii "_queue_process"
  | .queueMaxDepth => ascii "_queue_attribute_max_depth"
  | .queueOldestMsgAge => ascii "_queue_oldest_message_age"
  | .queueUncommittedMsgs => ascii "_queue_uncommitted_messages"
  | .queueQtimeShort => ascii "_queue_qtime_short"
  | .queueQtimeLong => ascii "_queue_qtime_long"
  | .queueQfileCurrentSize => ascii "_queue_qfile_current_size"
  | .queueQfileMaxSize => ascii "_queue_qfile_max_size"
  | .queueAppPuts => ascii "_queue_app_puts_total"
  | .queueAppGets => ascii "_queue_app_gets_total"
  | .queueAppMsgsReceived => ascii "_queue_app_msgs_received_total"
  | .queueAppMsgsSent => ascii "_queue_app_msgs_sent_total"
  | .queueHandleInfo => ascii "_queue_handle_info"
  | .queueProcessDetail => ascii "_queue_process_detail"
  | .channelMessages => ascii "_channel_messages_total"
  | .channelBytes => ascii "_channel_bytes_total"
  | .channelBatches => ascii "_channel_batches_total"
  | .channelStatus => ascii "_channel_status"
  | .channelStatusMsgs => ascii "_channel_msgs"
  | .channelBytesSent => ascii "_channel_bytes_sent"
  | .channelBytesReceived => ascii "_channel_bytes_received"
  | .channelBuffersSent => ascii "_channel_buffers_sent"
  | .channelBuffersReceived => ascii "_channel_buffers_received"
  | .channelSubstate => ascii "_channel_substate"
  | .channelInstanceType => ascii "_channel_instance_type"
  | .channelNettimeShort => ascii "_channel_nettime_short"
  | .channelNettimeLong => ascii "_channel_nettime_long"
  | .channelXmitqTimeShort => ascii "_channel_xmitq_time_short"
  | .channelXmitqTimeLong => ascii "_channel_xmitq_time_long"
  | .channelBatchSizeShort => ascii "_channel_batch_size_short"
  | .channelBatchSizeLong => ascii "_channel_batch_size_long"
  | .channelMaxInstc => ascii "_channel_max_instc"
  | .channelCurInstc => ascii "_channel_cur_instc"
  | .channelStatusSquash => ascii "_channel_status_squash"
  | .topicPubCount => ascii "_topic_publisher_count"
  | .topicSubCount => ascii "_topic_subscriber_count"
  | .subDurable => ascii "_subscription_durable"
  | .subType => ascii "_subscription_type"
  | .subMessageCount => ascii "_subscription_messages_received"
  | .clusterQmgrStatus => ascii "_cluster_qmgr_status"
  | .clusterQmgrSuspend => ascii "_cluster_qmgr_suspend"
  | .usageBpFree => ascii "_usage_bp_free_buffers"
  | .usageBpTotal => ascii "_usage_bp_total_buffers"
  | .usagePsTotal => ascii "_usage_ps_total_pages"
  | .usagePsUnused => ascii "_usage_ps_unused_pages"
  | .collectionInfo => ascii "_collection_info"
  | .lastCollectionTime => ascii "_last_collection_timestamp"
  | .mqiCounter c => ascii "_mqi_" ++ c.metricName
  | .mqiTotal t => ascii "_mqi_" ++ t.metricName
  | .qmgr name => ascii "_qmgr_" ++ name
  | .queuePub name => ascii "_queue_pub_" ++ name

/-- The prefix: `metrics_namespace` and `subsystem`. -/
def metricPrefix (metricsNamespace subsystem : Bytes) : Bytes :=
  metricsNamespace ++ if subsystem = [] then [] else ascii "_" ++ subsystem

/-- The name under which a family is exposed. -/
def exposedName (pre : Bytes) (f : Family) : Bytes := pre ++ f.metricName

example : exposedName (metricPrefix (ascii "ibmmq") []) .queueHighDepth =
    ascii "ibmmq_queue_depth_high" := by decide

/-- The families of the fields of `MetricsCollector`. -/
def fieldFamilies : List Family :=
  [.queueDepth, .queueHighDepth, .queueEnqueue, .queueDequeue, .queueInputHandles,
   .queueOutputHandles, .queueReaders, .queueWriters, .queueProcess, .queueMaxDepth,
   .queueOldestMsgAge, .queueUncommittedMsgs, .queueQtimeShort, .queueQtimeLong,
   .queueQfileCurrentSize, .queueQfileMaxSize, .queueAppPuts, .queueAppGets,
   .queueAppMsgsReceived, .queueAppMsgsSent, .queueHandleInfo, .queueProcessDetail,
   .channelMessages, .channelBytes, .channelBatches, .channelStatus, .channelStatusMsgs,
   .channelBytesSent, .channelBytesReceived, .channelBuffersSent, .channelBuffersReceived,
   .channelSubstate, .channelInstanceType, .channelNettimeShort, .channelNettimeLong,
   .channelXmitqTimeShort, .channelXmitqTimeLong, .channelBatchSizeShort, .channelBatchSizeLong,
   .channelMaxInstc, .channelCurInstc, .channelStatusSquash, .topicPubCount, .topicSubCount,
   .subDurable, .subType, .subMessageCount, .clusterQmgrStatus, .clusterQmgrSuspend,
   .usageBpFree, .usageBpTotal, .usagePsTotal, .usagePsUnused, .collectionInfo,
   .lastCollectionTime]

/-- The families whose names do not depend on what the queue manager publishes. -/
def fixedFamilies : List Family :=
  fieldFamilies ++ (mqiCounters.map .mqiCounter ++ mqiTotals.map .mqiTotal)

/-- The names that `init_metrics` registers and nothing is written to. -/
def unwrittenNames : List Bytes := [ascii "_queue_handle_count", ascii "_publications_received"]

section Names

theorem mem_fixedFamilies (f : Family) :
    f ∈ fixedFamilies ∨ (∃ name, f = .qmgr name) ∨ ∃ name, f = .queuePub name := by
  cases f with
  | qmgr name => exact Or.inr (Or.inl ⟨name, rfl⟩)
  | queuePub name => exact Or.inr (Or.inr ⟨name, rfl⟩)
  | mqiCounter c => cases c <;> exact Or.inl (by decide +kernel)
  | mqiTotal t => cases t <;> exact Or.inl (by decide +kernel)
  | _ => exact Or.inl (by decide +kernel)

/-- A name as a number, of which a computation can compare two at once. -/
def numbered (name : Bytes) : Nat := name.foldl (fun n b => n * 256 + b.toNat) 0

/-- The fixed names differ, from those that are never written too. -/
theorem nodup_fixedNames : (unwrittenNames ++ fixedFamilies.map Family.metricName).Nodup := by
  have hnumbers :
      ((unwrittenNames ++ fixedFamilies.map Family.metricName).map numbered).Nodup := by
    decide +kernel
  exact hnumbers.of_map

/-- A fixed name is not one of a publication. -/
theorem fixed_not_published {name : Bytes}
    (h : name ∈ unwrittenNames ++ fixedFamilies.map Family.metricName) :
    (ascii "_qmgr_").isPrefixOf name = false ∧ (ascii "_queue_pub_").isPrefixOf name = false := by
  have hall : (unwrittenNames ++ fixedFamilies.map Family.metricName).all fun name =>
      !(ascii "_qmgr_").isPrefixOf name && !(ascii "_queue_pub_").isPrefixOf name := by
    decide +kernel
  have hname := List.all_eq_true.mp hall name h
  rwa [Bool.and_eq_true, Bool.not_eq_true', Bool.not_eq_true'] at hname

/-- The families that a name behind the prefix belongs to. -/
theorem metricName_cases (f : Family) :
    f.metricName ∈ fixedFamilies.map Family.metricName ∧ f ∈ fixedFamilies ∨
      (∃ name, f = .qmgr name ∧ f.metricName = ascii "_qmgr_" ++ name) ∨
        ∃ name, f = .queuePub name ∧ f.metricName = ascii "_queue_pub_" ++ name := by
  rcases mem_fixedFamilies f with hf | ⟨name, rfl⟩ | ⟨name, rfl⟩
  · exact Or.inl ⟨List.mem_map_of_mem hf, hf⟩
  · exact Or.inr (Or.inl ⟨name, rfl, rfl⟩)
  · exact Or.inr (Or.inr ⟨name, rfl, rfl⟩)

theorem isPrefixOf_append_self (l l' : Bytes) : l.isPrefixOf (l ++ l') = true :=
  List.isPrefixOf_iff_prefix.mpr (List.prefix_append l l')

/-- The names of the two kinds of publications differ in the second character behind the
underscore. -/
theorem qmgr_ne_queuePub (name name' : Bytes) :
    ascii "_qmgr_" ++ name ≠ ascii "_queue_pub_" ++ name' := by
  intro h
  have hheads := congrArg (List.take 3) h
  rw [List.take_append_of_le_length (by decide), List.take_append_of_le_length (by decide)]
    at hheads
  exact absurd hheads (by decide)

/-- Different families have different names. -/
theorem metricName_injective : Function.Injective Family.metricName := by
  intro f f' h
  rcases metricName_cases f with ⟨hname, hf⟩ | ⟨name, rfl, hname⟩ | ⟨name, rfl, hname⟩
  · obtain ⟨hqmgr, hpub⟩ := fixed_not_published (List.mem_append_right _ hname)
    rcases metricName_cases f' with ⟨-, hf'⟩ | ⟨name', -, hname'⟩ | ⟨name', -, hname'⟩
    · have hnodup := (List.nodup_append.mp nodup_fixedNames).2.1
      exact List.inj_on_of_nodup_map hnodup hf hf' h
    · rw [h, hname', isPrefixOf_append_self] at hqmgr
      cases hqmgr
    · rw [h, hname', isPrefixOf_append_self] at hpub
      cases hpub
  · rcases metricName_cases f' with ⟨hmem', -⟩ | ⟨name', rfl, hname'⟩ | ⟨name', rfl, hname'⟩
    · obtain ⟨hqmgr, -⟩ := fixed_not_published (List.mem_append_right _ hmem')
      rw [← h, hname, isPrefixOf_append_self] at hqmgr
      cases hqmgr
    · rw [hname, hname'] at h
      rw [List.append_cancel_left h]
    · rw [hname, hname'] at h
      exact absurd h (qmgr_ne_queuePub name name')
  · rcases metricName_cases f' with ⟨hmem', -⟩ | ⟨name', rfl, hname'⟩ | ⟨name', rfl, hname'⟩
    · obtain ⟨-, hpub⟩ := fixed_not_published (List.mem_append_right _ hmem')
      rw [← h, hname, isPrefixOf_append_self] at hpub
      cases hpub
    · rw [hname, hname'] at h
      exact absurd h.symm (qmgr_ne_queuePub name' name)
    · rw [hname, hname'] at h
      rw [List.append_cancel_left h]

theorem exposedName_injective (pre : Bytes) : Function.Injective (exposedName pre) :=
  fun _ _ h => metricName_injective (List.append_cancel_left h)

end Names

/-! ## Labels -/

/-- The names of the five families of the queue manager's status, which publications may
have too. -/
def statusNames : List Bytes :=
  [ascii "status", ascii "connection_count", ascii "channel_initiator_status",
   ascii "command_server_status", ascii "uptime"]

/-- The names of the labels that the series of a family may have, but for the metadata. -/
def Family.schemas : Family → List (List LabelName)
  | .queueDepth | .queueHighDepth | .queueEnqueue | .queueDequeue | .queueReaders
  | .queueWriters | .queueMaxDepth | .queueOldestMsgAge | .queueUncommittedMsgs
  | .queueQtimeShort | .queueQtimeLong | .queueQfileCurrentSize | .queueQfileMaxSize =>
      [[queueManagerLabel, queueNameLabel, platformLabel]]
  | .queueProcess =>
      [[queueManagerLabel, queueNameLabel, applicationNameLabel, sourceIpLabel, roleLabel]]
  | .queueHandleInfo =>
      [[queueManagerLabel, queueNameLabel, applicationNameLabel, userIdentifierLabel,
        openModeLabel, handleStateLabel]]
  | .queueProcessDetail =>
      [[queueManagerLabel, queueNameLabel, applicationNameLabel, processIdLabel,
        userIdentifierLabel, roleLabel]]
  | .queueInputHandles | .queueOutputHandles =>
      [[queueManagerLabel, queueNameLabel, useridLabel, pidLabel, channelLabel, appltagLabel,
        connameLabel]]
  | .channelMessages | .channelBytes | .channelBatches =>
      [[queueManagerLabel, channelNameLabel, connectionNameLabel]]
  | .queueAppPuts | .queueAppGets | .queueAppMsgsReceived | .queueAppMsgsSent =>
      [[queueManagerLabel, queueNameLabel, applicationNameLabel, sourceIpLabel,
        userIdentifierLabel]]
  | .mqiCounter _ | .mqiTotal _ =>
      [[queueManagerLabel, applicationNameLabel, applicationTagLabel, userIdentifierLabel,
        connectionNameLabel, channelNameLabel]]
  | .collectionInfo => [[queueManagerLabel, channelLabel, platformLabel, collectorVersionLabel]]
  | .channelStatus | .channelStatusMsgs | .channelBytesSent | .channelBytesReceived
  | .channelBuffersSent | .channelBuffersReceived | .channelSubstate | .channelInstanceType
  | .channelNettimeShort | .channelNettimeLong | .channelXmitqTimeShort | .channelXmitqTimeLong
  | .channelBatchSizeShort | .channelBatchSizeLong | .channelMaxInstc | .channelCurInstc
  | .channelStatusSquash =>
      [[qmgrLabel, platformLabel, channelLabel, typeLabel, rqmnameLabel, connnameLabel,
        jobnameLabel, sslciphLabel]]
  | .topicPubCount | .topicSubCount => [[qmgrLabel, platformLabel, topicLabel, typeLabel]]
  | .subDurable | .subType | .subMessageCount =>
      [[qmgrLabel, platformLabel, subscriptionLabel, subidLabel, topicLabel, typeLabel]]
  | .clusterQmgrStatus | .clusterQmgrSuspend =>
      [[qmgrLabel, platformLabel, clusterLabel, qmtypeLabel]]
  | .usageBpFree | .usageBpTotal =>
      [[qmgrLabel, platformLabel, bufferpoolLabel, locationLabel, pageclassLabel]]
  | .usagePsTotal | .usagePsUnused => [[qmgrLabel, platformLabel, pagesetLabel, bufferpoolLabel]]
  | .lastCollectionTime => [[queueManagerLabel]]
  | .qmgr name =>
      [qmgrLabel, platformLabel, typeLabel] ::
        if statusNames.contains name then [[qmgrLabel, platformLabel, descriptionLabel]] else []
  | .queuePub _ => [[qmgrLabel, platformLabel, scopeLabel .queue]]

/-- A measurement has the labels that its families ask for. -/
theorem names_mem_schemas (o : Origin) {x : Measurement} {f : Family} (h : x.Writes f) :
    (x.entries o).map Prod.fst ∈ f.schemas := by
  cases x with
  | collection | queueProcess | queueHandleInfo | queueProcessDetail | timestamp =>
      obtain rfl := h
      exact List.mem_singleton_self _
  | queueHandles reported queueName proc =>
      obtain rfl := h
      cases proc.role <;> exact List.mem_singleton_self _
  | mqi =>
      rcases h with ⟨c, rfl⟩ | ⟨t, rfl⟩
      · exact List.mem_singleton_self _
      · exact List.mem_singleton_self _
  | operations =>
      obtain ⟨c, rfl⟩ := h
      exact List.mem_singleton_self _
  | qmgr =>
      simp only [Measurement.Writes] at h
      fin_cases h
      all_goals exact List.mem_cons_of_mem _ (List.mem_singleton_self _)
  | publication plat pm =>
      obtain ⟨name, rfl⟩ := h
      show [qmgrLabel, platformLabel, scopeLabel (scopeOf pm)] ∈ _
      cases scopeOf pm with
      | qmgr => exact List.mem_cons_self
      | queue => exact List.mem_singleton_self _
  | _ =>
      simp only [Measurement.Writes] at h
      fin_cases h
      all_goals exact List.mem_singleton_self _

end IbmmqExporter.Metrics
