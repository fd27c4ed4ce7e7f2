import Mathlib.Algebra.BigOperators.Group.List.Basic
import Xir.Impl.GoRuntime.DeploymentGas

/-!
# The gas of a deployment

Every action of a run is recorded once, in the phase that sent it (`Sent`). The
documents go through the records chain by chain, or class by class, which is
through all of them in another order (`groups_perm`), so that the figures add up
(`gasTotals`). But no label of the bootstrap has `:hyperlane:` in it, so that all
of its gas is counted for LayerZero (`carriers_of_bootstrap`).
-/

namespace Xir.Impl.DeploymentGas

variable {r t u : Run} {records records' : List ActionRecord}

/-! ## Records -/

/-- What sending actions does, which have these records. -/
structure Sent (r t : Run) (records : List ActionRecord) : Prop where
  order : t.order = r.order
  phase : t.phase = r.phase
  succeeded : t.succeeded = r.succeeded
  protocolRecords : t.protocolRecords = r.protocolRecords ++ if r.phase = .protocol then records else []
  appRecords : t.appRecords = r.appRecords ++ if r.phase = .protocol then [] else records
  journal : t.journal = r.journal ++ records.filter fun record => !r.succeeded record.role record.ordinal
  ordinal (role : String) : r.ordinal role ≤ t.ordinal role
  between (record : ActionRecord) :
    record ∈ records → r.ordinal record.role < record.ordinal ∧ record.ordinal ≤ t.ordinal record.role

theorem Sent.refl (r : Run) : Sent r r [] :=
  ⟨rfl, rfl, rfl, by simp, by simp, by simp, fun _ => le_rfl, fun _ h => absurd h List.not_mem_nil⟩

theorem Sent.trans (h : Sent r t records) (h' : Sent t u records') : Sent r u (records ++ records') := by
  refine ⟨h'.order.trans h.order, h'.phase.trans h.phase, h'.succeeded.trans h.succeeded, ?_, ?_, ?_,
    fun role => (h.ordinal role).trans (h'.ordinal role), fun record hr => ?_⟩
  · rw [h'.protocolRecords, h.protocolRecords, h.phase]
    split
    · rw [List.append_assoc]
    · rw [List.append_nil]
  · rw [h'.appRecords, h.appRecords, h.phase]
    split
    · rw [List.append_nil]
    · rw [List.append_assoc]
  · rw [h'.journal, h.journal, h.succeeded, List.filter_append, List.append_assoc]
  · obtain hr | hr := List.mem_append.mp hr
    · exact ⟨(h.between record hr).1, (h.between record hr).2.trans (h'.ordinal _)⟩
    · exact ⟨(h.ordinal _).trans_lt (h'.between record hr).1, (h'.between record hr).2⟩

/-- An action is filed under the phase of its chain. -/
theorem addAction_sent (r : Run) (record : ActionRecord) :
    (r.addAction record).protocolRecords = r.protocolRecords ++ (if r.phase = .protocol then [record] else []) ∧
      (r.addAction record).appRecords = r.appRecords ++ (if r.phase = .protocol then [] else [record]) ∧
      (r.addAction record).order = r.order ∧ (r.addAction record).phase = r.phase ∧
      (r.addAction record).ordinal = r.ordinal ∧
      (r.addAction record).succeeded = r.succeeded ∧ (r.addAction record).journal = r.journal := by
  unfold Run.addAction
  split <;> simp

theorem execute_sent (r : Run) (send : Send) : Sent r (r.execute send) [r.record send] := by
  obtain ⟨hprotocol, happ, horder, hphase, hordinal, hsucceeded, hjournal⟩ :=
    addAction_sent { r with ordinal := Function.update r.ordinal send.1 (r.ordinal send.1 + 1) } (r.record send)
  refine ⟨horder, hphase, hsucceeded, hprotocol, happ, ?_, fun role => ?_, fun record hr => ?_⟩
  · show _ ++ _ = _
    rw [hjournal]
    refine congrArg _ ?_
    by_cases hs : r.succeeded (r.record send).role (r.record send).ordinal = true
    · simp [hs]
    · simp [hs]
  · show _ ≤ (Run.addAction _ _).ordinal role
    rw [hordinal]
    by_cases h : role = send.1
    · simp [h]
    · simp [Function.update_of_ne h]
  · obtain rfl := List.mem_singleton.mp hr
    show r.ordinal send.1 < r.ordinal send.1 + 1 ∧ _ ≤ (Run.addAction _ _).ordinal send.1
    rw [hordinal]
    simp [Run.record]

/-- The actions that are sent have records with their roles and labels. -/
theorem executeAll_sent (r : Run) (sends : List Send) :
    ∃ records, Sent r (r.executeAll sends) records ∧ records.map (fun record => (record.role, record.action)) = sends :=
  by
  induction sends generalizing r with
  | nil => exact ⟨[], .refl r, rfl⟩
  | cons send sends ih =>
    obtain ⟨records, h, hmap⟩ := ih (r.execute send)
    exact ⟨r.record send :: records, (execute_sent r send).trans h, by rw [List.map_cons, hmap]; rfl⟩

/-! ## The bootstrap -/

/-- The records that a function of the bootstrap adds. -/
def addedRecords (r t : Run) : List ActionRecord := t.protocolRecords.drop r.protocolRecords.length

/-- The records of the actions that `bootstrapHyperlane` executes on the chains, one after another. -/
def hyperlaneRecords (r : Run) : List String → List ActionRecord
  | [] => []
  | role :: roles =>
    let t := r.bootstrapHyperlane role
    addedRecords r t ++ hyperlaneRecords (t.bootstrapLayerZero role) roles

/-- Those of `bootstrapLayerZero`. -/
def layerZeroRecords (r : Run) : List String → List ActionRecord
  | [] => []
  | role :: roles =>
    let t := r.bootstrapHyperlane role
    addedRecords t (t.bootstrapLayerZero role) ++ layerZeroRecords (t.bootstrapLayerZero role) roles

theorem Sent.addedRecords_eq (h : Sent r t records) (hp : r.phase = .protocol) : addedRecords r t = records := by
  rw [addedRecords, h.protocolRecords, if_pos hp, List.drop_left]

/-- What contains the name of the carrier has a letter that no label of the bootstrap has. -/
theorem contains_of_not_mem {label : String} (h : 'h' ∉ label.toList) :
    Strings.contains label ":hyperlane:" = false := by
  refine eq_false_of_ne_true fun hc => h ?_
  obtain ⟨t, ht, hpre⟩ := List.any_eq_true.mp hc
  have hin : 'h' ∈ ":hyperlane:".toList := by decide
  exact ((List.mem_tails t _).mp ht).subset ((of_decide_eq_true hpre).subset hin)

theorem not_mem_hyperlaneLabels : ∀ label ∈ hyperlaneLabels, 'h' ∉ label.toList := by decide +kernel

theorem not_mem_layerZeroLabels (remotes : List String) : ∀ label ∈ layerZeroLabels remotes, 'h' ∉ label.toList := by
  have hfixed : ∀ label ∈ layerZeroLabels [], 'h' ∉ label.toList := by decide +kernel
  intro label hl
  obtain hl | hl := List.mem_append.mp hl
  · exact hfixed label (List.mem_append_left _ hl)
  · obtain ⟨_, -, hl⟩ := List.mem_flatMap.mp hl
    obtain rfl | hl := List.mem_cons.mp hl
    · decide
    · obtain rfl := List.mem_singleton.mp hl
      decide

theorem sends_of_labels {labels : List String} {role : String}
    (h : records.map (fun record => (record.role, record.action)) =
    labels.map fun label => (role, label)) :
    records.length = labels.length ∧ ∀ record ∈ records, record.role = role ∧ record.action ∈ labels := by
  refine ⟨by simpa using congrArg List.length h, fun record hr => ?_⟩
  have hmem : (record.role, record.action) ∈ labels.map fun label => (role, label) := h ▸ List.mem_map_of_mem hr
  obtain ⟨label, hl, heq⟩ := List.mem_map.mp hmem
  obtain ⟨rfl, rfl⟩ := Prod.mk.inj heq
  exact ⟨rfl, hl⟩

theorem bootstrapHyperlane_sent (r : Run) (role : String) : ∃ records, Sent r (r.bootstrapHyperlane role) records ∧
    records.length = hyperlaneLabels.length ∧
      ∀ record ∈ records, record.role = role ∧ Strings.contains record.action ":hyperlane:" = false := by
  obtain ⟨records, h, hmap⟩ := executeAll_sent r (hyperlaneLabels.map fun label => (role, label))
  obtain ⟨hlength, hall⟩ := sends_of_labels hmap
  exact ⟨records, h, hlength,
    fun record hr => ⟨(hall record hr).1, contains_of_not_mem (not_mem_hyperlaneLabels _ (hall record hr).2)⟩⟩

theorem bootstrapLayerZero_sent (r : Run) (role : String) : ∃ records, Sent r (r.bootstrapLayerZero role) records ∧
    ∀ record ∈ records, record.role = role ∧ Strings.contains record.action ":hyperlane:" = false := by
  obtain ⟨records, h, hmap⟩ :=
    executeAll_sent r ((layerZeroLabels (r.order.filter (· ≠ role))).map fun label => (role, label))
  obtain ⟨-, hall⟩ := sends_of_labels hmap
  exact ⟨records, h,
    fun record hr => ⟨(hall record hr).1, contains_of_not_mem (not_mem_layerZeroLabels _ _ (hall record hr).2)⟩⟩

/-- What the bootstrap of some chains records. -/
theorem bootstrap_sent (roles : List String) (hp : r.phase = .protocol) :
    ∃ records, Sent r (roles.foldl (fun r role => (r.bootstrapHyperlane role).bootstrapLayerZero role) r) records ∧
      records.Perm (hyperlaneRecords r roles ++ layerZeroRecords r roles) ∧
      (hyperlaneRecords r roles).length = hyperlaneLabels.length * roles.length ∧
      ∀ record ∈ records, record.role ∈ roles ∧ Strings.contains record.action ":hyperlane:" = false := by
  induction roles generalizing r with
  | nil => exact ⟨[], .refl r, .refl _, (Nat.mul_zero _).symm, by simp⟩
  | cons role roles ih =>
    obtain ⟨h, hsent, hlen, hin⟩ := bootstrapHyperlane_sent r role
    obtain ⟨l, lsent, lin⟩ := bootstrapLayerZero_sent (r.bootstrapHyperlane role) role
    have hboth := hsent.trans lsent
    obtain ⟨records, sent, hperm, hlength, hall⟩ := ih (hboth.phase.trans hp)
    have hh := hsent.addedRecords_eq hp
    have hl := lsent.addedRecords_eq (hsent.phase.trans hp)
    rw [List.foldl_cons]
    refine ⟨h ++ l ++ records, hboth.trans sent, ?_, ?_, fun record hr => ?_⟩
    · rw [hyperlaneRecords, layerZeroRecords, hh, hl, List.append_assoc, List.append_assoc]
      refine (List.Perm.append_left h (.trans (.append_left l hperm) ?_))
      rw [← List.append_assoc, ← List.append_assoc]
      exact List.perm_append_comm.append_right _
    · rw [hyperlaneRecords, hh, List.length_append, hlen, hlength, List.length_cons, Nat.mul_succ, Nat.add_comm]
    · obtain hr | hr := List.mem_append.mp hr
      · obtain hr | hr := List.mem_append.mp hr
        · exact ⟨(hin record hr).1 ▸ List.mem_cons_self, (hin record hr).2⟩
        · exact ⟨(lin record hr).1 ▸ List.mem_cons_self, (lin record hr).2⟩
      · exact ⟨List.mem_cons_of_mem _ (hall record hr).1, (hall record hr).2⟩

/-! ## Figures -/

/-- The count and the gas of some records. -/
def gasOf (records : List ActionRecord) : ChainGasDocument := ⟨records.length, (records.map ActionRecord.gasUsed).sum⟩

/-- The records of each key make up all of them. -/
theorem groups_perm (key : ActionRecord → String) {keys : List String} (hd : keys.Nodup)
    (hk : ∀ record ∈ records, key record ∈ keys) :
    (keys.flatMap fun k => records.filter fun record => key record = k).Perm records := by
  induction keys generalizing records with
  | nil =>
    cases records with
    | nil => exact .refl _
    | cons record records => exact absurd (hk record List.mem_cons_self) List.not_mem_nil
  | cons k keys ih =>
    have hd := List.nodup_cons.mp hd
    have hrest : ∀ record ∈ records.filter fun record => ¬ key record = k, key record ∈ keys := by
      intro record hr
      obtain ⟨hr, hne⟩ := List.mem_filter.mp hr
      exact (List.mem_cons.mp (hk record hr)).resolve_left (of_decide_eq_true hne)
    have hsame :
        (keys.flatMap fun k' => (records.filter fun record => ¬ key record = k).filter fun record => key record = k') =
        keys.flatMap fun k' => records.filter fun record => key record = k' := by
      refine List.flatMap_congr fun k' hk' => ?_
      rw [List.filter_filter]
      refine List.filter_congr fun record _ => ?_
      by_cases h : key record = k'
      · have hne : ¬ key record = k := fun he => hd.1 (he ▸ h ▸ hk')
        simp [h, h ▸ hne]
      · simp [h]
    rw [List.flatMap_cons, ← hsame]
    refine (List.Perm.append_left _ (ih hd.2 hrest)).trans ?_
    simpa using List.filter_append_perm (fun record => decide (key record = k)) records

/-- Counts the gas of some records. -/
def ChainGasDocument.addAll (gas : ChainGasDocument) (records : List ActionRecord) : ChainGasDocument :=
  ⟨gas.transactionCount + records.length, gas.gasUsed + (records.map ActionRecord.gasUsed).sum⟩

theorem ChainGasDocument.addAll_nil (gas : ChainGasDocument) : gas.addAll [] = gas := by simp [addAll]

theorem ChainGasDocument.addAll_append (gas : ChainGasDocument) (records records' : List ActionRecord) :
    gas.addAll (records ++ records') = (gas.addAll records).addAll records' := by
  simp [addAll, add_assoc]

theorem ChainGasDocument.add_eq (gas : ChainGasDocument) (record : ActionRecord) :
    gas.add record.gasUsed = gas.addAll [record] := by
  simp [add, addAll]

theorem ChainGasDocument.addAll_perm (gas : ChainGasDocument) (h : records.Perm records') :
    gas.addAll records = gas.addAll records' := by
  rw [addAll, addAll, h.length_eq, (h.map _).sum_eq]

theorem zero_addAll (records : List ActionRecord) : ChainGasDocument.zero.addAll records = gasOf records := by
  simp [ChainGasDocument.addAll, ChainGasDocument.zero, gasOf]

/-! ## The document of the bootstrap -/

/-- Whether a record is counted for Hyperlane. -/
def named (record : ActionRecord) : Bool := Strings.contains record.action ":hyperlane:"

theorem foldl_countRecord (records : List ActionRecord) (document : ProtocolGasDocument) (gas : ChainGasDocument) :
    records.foldl countRecord (document, gas) =
      ({ document with
          hyperlane := document.hyperlane.addAll (records.filter named)
          layerZero :=
  document.layerZero.addAll (records.filter fun record => !named record) }, gas.addAll records) := by
  induction records generalizing document gas with
  | nil => simp [ChainGasDocument.addAll_nil]
  | cons record records ih =>
    rw [List.foldl_cons, countRecord]
    by_cases h : Strings.contains record.action ":hyperlane:" = true
    · have hn : named record = true := h
      simp only [if_pos h, ih, List.filter_cons, hn, Bool.not_true, Bool.false_eq_true, if_true, if_false,
        ChainGasDocument.add_eq, ← ChainGasDocument.addAll_append, List.singleton_append]
    · have hn : named record = false := eq_false_of_ne_true h
      simp only [if_neg h, ih, List.filter_cons, hn, Bool.not_false, Bool.false_eq_true, if_true, if_false,
        ChainGasDocument.add_eq, ← ChainGasDocument.addAll_append, List.singleton_append]

/-- The records of some chains, chain by chain. -/
def ofChains (records : List ActionRecord) (roles : List String) : List ActionRecord :=
  roles.flatMap fun role => records.filter fun record => record.role = role

theorem foldl_countChain (records : List ActionRecord) (roles : List String) (document : ProtocolGasDocument) :
    roles.foldl (countChain records) document =
      { transactionCount := document.transactionCount + (ofChains records roles).length
        gasUsed := document.gasUsed + ((ofChains records roles).map ActionRecord.gasUsed).sum
        byChain :=
  document.byChain ++ roles.map fun role => (role, gasOf (records.filter fun record => record.role = role))
        hyperlane := document.hyperlane.addAll ((ofChains records roles).filter named)
        layerZero := document.layerZero.addAll ((ofChains records roles).filter fun record => !named record) } := by
  induction roles generalizing document with
  | nil => simp [ofChains, ChainGasDocument.addAll_nil]
  | cons role roles ih =>
    have hcons :
        ofChains records (role :: roles) =
        (records.filter fun record => record.role = role) ++ ofChains records roles := rfl
    rw [List.foldl_cons, ih, countChain, foldl_countRecord, zero_addAll, hcons]
    simp [gasOf, ChainGasDocument.addAll_append, add_assoc]

/-- The figures of the bootstrap, where each record is of one of the chains. -/
theorem protocolGasDocument_eq (hd : r.order.Nodup) (hr : ∀ record ∈ r.protocolRecords, record.role ∈ r.order) :
    (⟨r.protocolGasDocument.transactionCount, r.protocolGasDocument.gasUsed⟩ : ChainGasDocument) =
      gasOf r.protocolRecords ∧ (r.protocolGasDocument.byChain =
        r.order.map fun role => (role, gasOf (r.protocolRecords.filter fun record => record.role = role))) ∧
      r.protocolGasDocument.hyperlane = gasOf (r.protocolRecords.filter named) ∧
      r.protocolGasDocument.layerZero = gasOf (r.protocolRecords.filter fun record => !named record) := by
  have hperm : (ofChains r.protocolRecords r.order).Perm r.protocolRecords := groups_perm ActionRecord.role hd hr
  rw [Run.protocolGasDocument, foldl_countChain]
  refine ⟨?_, List.nil_append _, ?_, ?_⟩
  · exact (ChainGasDocument.addAll_perm .zero hperm).trans (zero_addAll _)
  · exact (ChainGasDocument.addAll_perm _ (hperm.filter _)).trans (zero_addAll _)
  · exact (ChainGasDocument.addAll_perm _ (hperm.filter _)).trans (zero_addAll _)

/-! ## The document of the application -/

theorem sum_eq (values : List (BitVec 64)) : sum values = values.sum := List.sum_eq_foldl.symm

theorem sortedKeys_nodup (key : ActionRecord → String) (records : List ActionRecord) : (sortedKeys key records).Nodup :=
  (List.mergeSort_perm _ _).nodup_iff.mpr (List.nodup_dedup _)

theorem mem_sortedKeys {key : ActionRecord → String} {k : String} :
    k ∈ sortedKeys key records ↔ ∃ record ∈ records, key record = k := by
  rw [sortedKeys, List.mem_mergeSort, List.mem_dedup, List.mem_map]

/-- The values of the keys are those of all records. -/
theorem values_perm (key : ActionRecord → String) (records : List ActionRecord) :
    ((sortedKeys key records).flatMap (valuesOf key records)).Perm (records.map ActionRecord.gasUsed) := by
  have hperm :=
    (groups_perm key (sortedKeys_nodup key records) fun record hr => mem_sortedKeys.mpr ⟨record, hr, rfl⟩).map
    ActionRecord.gasUsed
  rwa [List.map_flatMap] at hperm

theorem sum_counts (key : ActionRecord → String) (records : List ActionRecord) :
    ((sortedKeys key records).map fun k => (valuesOf key records k).length).sum = records.length := by
  rw [← List.length_flatMap, (values_perm key records).length_eq, List.length_map]

theorem sum_sums (key : ActionRecord → String) (records : List ActionRecord) :
    ((sortedKeys key records).map fun k => sum (valuesOf key records k)).sum =
    (records.map ActionRecord.gasUsed).sum := by
  rw [← (values_perm key records).sum_eq, List.flatMap_def, List.sum_flatten, List.map_map]
  exact congrArg List.sum (List.map_congr_left fun k _ => sum_eq _)

/-- A fold that takes the better of two values ends with one that is as good as all. -/
theorem foldl_best {α : Type} {better asGood : α → α → Prop} [DecidableRel better] (refl : ∀ a, asGood a a)
    (trans : ∀ {a b c}, asGood a b → asGood b c → asGood a c) (of_better : ∀ {a b}, better a b → asGood a b)
    (of_not : ∀ {a b}, ¬ better a b → asGood b a) (value : α) (values : List α) :
    values.foldl (fun best value => if better value best then value else best) value ∈ value :: values ∧
      ∀ other ∈ value :: values,
        asGood (values.foldl (fun best value => if better value best then value else best) value) other := by
  induction values generalizing value with
  | nil => exact ⟨List.mem_cons_self, List.forall_mem_singleton.mpr (refl value)⟩
  | cons next values ih =>
    rw [List.foldl_cons, List.forall_mem_cons, List.forall_mem_cons]
    by_cases h : better next value
    · obtain ⟨hmem, hall⟩ := ih next
      rw [List.forall_mem_cons] at hall
      rw [if_pos h]
      exact ⟨List.mem_cons_of_mem _ hmem, trans hall.1 (of_better h), hall.1, hall.2⟩
    · obtain ⟨hmem, hall⟩ := ih value
      rw [List.forall_mem_cons] at hall
      rw [if_neg h]
      refine ⟨?_, hall.1, trans hall.1 (of_not h), hall.2⟩
      obtain hmem | hmem := List.mem_cons.mp hmem
      · rw [hmem]
        exact List.mem_cons_self
      · exact List.mem_cons_of_mem _ (List.mem_cons_of_mem _ hmem)

theorem minimum_mem_le {values : List (BitVec 64)} (h : values ≠ []) :
    minimum values ∈ values ∧ ∀ value ∈ values, minimum values ≤ value := by
  cases values with
  | nil => exact absurd rfl h
  | cons value values =>
    exact @foldl_best _ (· < ·) (· ≤ ·) _ BitVec.le_refl BitVec.le_trans BitVec.le_of_lt BitVec.not_lt.mp value values

theorem maximum_mem_le {values : List (BitVec 64)} (h : values ≠ []) :
    maximum values ∈ values ∧ ∀ value ∈ values, value ≤ maximum values := by
  cases values with
  | nil => exact absurd rfl h
  | cons value values =>
    exact @foldl_best _ (· > ·) (· ≥ ·) _ BitVec.le_refl (fun h h' => BitVec.le_trans h' h) BitVec.le_of_lt
      BitVec.not_lt.mp
      value values

/-- The figures of a component are those of some actions. -/
structure ComponentOf (records : List ActionRecord) (c : ComponentGasDocument) : Prop where
  component : ∀ record ∈ records, componentOf record = c.component
  observationCount : c.observationCount = records.length
  minimumGas : c.minimumGas ∈ records.map ActionRecord.gasUsed ∧ ∀ record ∈ records, c.minimumGas ≤ record.gasUsed
  maximumGas : c.maximumGas ∈ records.map ActionRecord.gasUsed ∧ ∀ record ∈ records, record.gasUsed ≤ c.maximumGas
  meanGas : c.meanGas = (UInt64.ofBitVec (gasOf records).gasUsed).toFloat / records.length.toFloat

theorem componentOf_group {component : String} (h : component ∈ sortedKeys componentOf records) :
    ComponentOf (records.filter fun record => componentOf record = component)
      ⟨component, (valuesOf componentOf records component).length, minimum (valuesOf componentOf records component),
        maximum (valuesOf componentOf records component), mean (valuesOf componentOf records component)⟩ := by
  obtain ⟨record, hr, hkey⟩ := mem_sortedKeys.mp h
  have hmem : record ∈ records.filter fun record => componentOf record = component :=
    List.mem_filter.mpr ⟨hr, decide_eq_true hkey⟩
  have hne : valuesOf componentOf records component ≠ [] := fun hnil => by
    have hgas := List.mem_map_of_mem (f := ActionRecord.gasUsed) hmem
    rw [show (records.filter fun record => componentOf record = component).map ActionRecord.gasUsed = [] from hnil]
      at hgas
    exact absurd hgas List.not_mem_nil
  exact {
    component := fun record hr => of_decide_eq_true (List.mem_filter.mp hr).2
    observationCount := List.length_map _
    minimumGas := ⟨(minimum_mem_le hne).1, fun record hr => (minimum_mem_le hne).2 _ (List.mem_map_of_mem hr)⟩
    maximumGas := ⟨(maximum_mem_le hne).1, fun record hr => (maximum_mem_le hne).2 _ (List.mem_map_of_mem hr)⟩
    meanGas := by
      show mean _ = _
      rw [mean, sum_eq, valuesOf, List.length_map]
      rfl }

/-- The figures of the application. -/
theorem deploymentGasDocument_eq (r : Run) :
    (⟨r.deploymentGasDocument.transactionCount, r.deploymentGasDocument.gasUsed⟩ : ChainGasDocument) =
      gasOf r.appRecords ∧ ((r.deploymentGasDocument.classifiedTotals.map fun c => c.transactionCount).sum,
        (r.deploymentGasDocument.classifiedTotals.map fun c => c.gasUsed).sum) =
          (r.deploymentGasDocument.transactionCount, r.deploymentGasDocument.gasUsed) ∧
      ∃ groups : List (List ActionRecord), groups.flatten.Perm r.appRecords ∧
        List.Forall₂ ComponentOf groups r.deploymentGasDocument.componentUnitObservations := by
  have hcount : r.deploymentGasDocument.transactionCount = r.appRecords.length := List.length_map _
  have hgas : r.deploymentGasDocument.gasUsed = (r.appRecords.map ActionRecord.gasUsed).sum := by
    rw [Run.deploymentGasDocument, sum_eq, List.map_map]
    rfl
  have hclassified : r.deploymentGasDocument.classifiedTotals = (sortedKeys classificationOf r.appRecords).map fun k =>
      ⟨k, (valuesOf classificationOf r.appRecords k).length, sum (valuesOf classificationOf r.appRecords k)⟩ := rfl
  rw [hcount, hgas, hclassified]
  simp only [List.map_map]
  refine ⟨rfl, Prod.ext (sum_counts classificationOf r.appRecords) (sum_sums classificationOf r.appRecords),
    (sortedKeys componentOf r.appRecords).map fun component =>
      r.appRecords.filter fun record => componentOf record = component,
    ?_, ?_⟩
  · rw [← List.flatMap_def]
    exact groups_perm componentOf
      (sortedKeys_nodup componentOf r.appRecords) fun record hr => mem_sortedKeys.mpr ⟨record, hr, rfl⟩
  · show List.Forall₂ ComponentOf _ ((sortedKeys componentOf r.appRecords).map _)
    rw [List.forall₂_map_left_iff, List.forall₂_map_right_iff, List.forall₂_same]
    exact fun component hc => componentOf_group hc

/-! ## The whole run -/

/-- The bootstrap and the application, as parts of one run. -/
structure Deployed (r : Run) (routes : List Route) (bootstrap application : List ActionRecord) : Prop where
  order : (r.deploy routes).order = r.order
  protocolRecords : (r.deploy routes).protocolRecords = r.protocolRecords ++ bootstrap
  appRecords : (r.deploy routes).appRecords = r.appRecords ++ application
  journal : (r.deploy routes).journal =
    r.journal ++ (bootstrap ++ application).filter fun record => !r.succeeded record.role record.ordinal
  perm : bootstrap.Perm (hyperlaneRecords r r.order ++ layerZeroRecords r r.order)
  hyperlane_length : (hyperlaneRecords r r.order).length = hyperlaneLabels.length * r.order.length
  mem (record : ActionRecord) : record ∈ bootstrap → record.role ∈ r.order ∧ named record = false
  sends : application.map (fun record => (record.role, record.action)) = applicationSends r.order routes
  disjoint (record record' : ActionRecord) : record ∈ bootstrap → record' ∈ application →
    (record.role, record.ordinal) ≠ (record'.role, record'.ordinal)

theorem deployed (routes : List Route) (hp : r.phase = .protocol) :
    ∃ bootstrap application, Deployed r routes bootstrap application := by
  obtain ⟨bootstrap, hb, hperm, hlength, hmem⟩ := bootstrap_sent r.order hp
  obtain ⟨application, ha, hsends⟩ :=
    executeAll_sent { r.bootstrapProtocols with phase := .application }
      (applicationSends r.bootstrapProtocols.order routes)
  have happ := ha.appRecords
  have hprotocol := ha.protocolRecords
  rw [if_neg (by simp)] at happ hprotocol
  have hborder : r.bootstrapProtocols.order = r.order := hb.order
  have hbsucceeded : r.bootstrapProtocols.succeeded = r.succeeded := hb.succeeded
  have hbjournal : r.bootstrapProtocols.journal = _ := hb.journal
  have hbprotocol : r.bootstrapProtocols.protocolRecords = _ := hb.protocolRecords
  have hbapp : r.bootstrapProtocols.appRecords = _ := hb.appRecords
  rw [if_pos hp] at hbprotocol hbapp
  refine ⟨bootstrap, application, ha.order.trans hborder, ?_, ?_, ?_, hperm, hlength, hmem, ?_,
    fun record record' hr hr' heq => ?_⟩
  · rw [List.append_nil] at hprotocol
    exact hprotocol.trans hbprotocol
  · refine happ.trans ?_
    rw [show ({ r.bootstrapProtocols with phase := .application } : Run).appRecords =
      r.bootstrapProtocols.appRecords from rfl, hbapp, List.append_nil]
  · refine ha.journal.trans ?_
    rw [show ({ r.bootstrapProtocols with phase := .application } : Run).journal =
      r.bootstrapProtocols.journal from rfl,
      show ({ r.bootstrapProtocols with phase := .application } : Run).succeeded =
      r.bootstrapProtocols.succeeded from rfl, hbjournal, hbsucceeded, List.filter_append, List.append_assoc]
  · rw [hsends, hborder]
  · obtain ⟨hrole, hordinal⟩ := Prod.mk.inj heq
    have hlow : r.bootstrapProtocols.ordinal record'.role < record'.ordinal := (ha.between record' hr').1
    have hhigh : record.ordinal ≤ r.bootstrapProtocols.ordinal record.role := (hb.between record hr).2
    rw [hrole] at hhigh
    omega

/-- Every figure but those of the carriers is that of the actions it names, each counted once. -/
structure GasTotals (r : Run) (routes : List Route) : Prop where
  chains : (r.deploy routes).protocolGasDocument.byChain = r.order.map fun role =>
    (role, gasOf ((r.deploy routes).protocolRecords.filter fun record => record.role = role))
  bootstrap : (⟨(r.deploy routes).protocolGasDocument.transactionCount, (r.deploy routes).protocolGasDocument.gasUsed⟩ :
    ChainGasDocument) = gasOf (r.deploy routes).protocolRecords
  carriers : (r.deploy routes).protocolRecords.Perm (hyperlaneRecords r r.order ++ layerZeroRecords r r.order)
  application :
    (⟨(r.deploy routes).deploymentGasDocument.transactionCount, (r.deploy routes).deploymentGasDocument.gasUsed⟩ :
    ChainGasDocument) = gasOf (r.deploy routes).appRecords
  sends : (r.deploy routes).appRecords.map (fun record => (record.role, record.action)) =
    applicationSends r.order routes
  classified : (((r.deploy routes).deploymentGasDocument.classifiedTotals.map fun c => c.transactionCount).sum,
    ((r.deploy routes).deploymentGasDocument.classifiedTotals.map fun c => c.gasUsed).sum) =
      ((r.deploy routes).deploymentGasDocument.transactionCount, (r.deploy routes).deploymentGasDocument.gasUsed)
  components : ∃ groups : List (List ActionRecord), groups.flatten.Perm (r.deploy routes).appRecords ∧
    List.Forall₂ ComponentOf groups (r.deploy routes).deploymentGasDocument.componentUnitObservations
  disjoint (record record' : ActionRecord) :
    record ∈ (r.deploy routes).protocolRecords → record' ∈ (r.deploy routes).appRecords →
    (record.role, record.ordinal) ≠ (record'.role, record'.ordinal)
  journal : (r.deploy routes).journal = (r.deploy routes).protocolRecords ++ (r.deploy routes).appRecords

/-- The figures of the carriers are those of what their bootstraps execute. -/
def CarrierSplit (r : Run) (routes : List Route) : Prop :=
  (r.deploy routes).protocolGasDocument.hyperlane = gasOf (hyperlaneRecords r r.order) ∧
    (r.deploy routes).protocolGasDocument.layerZero = gasOf (layerZeroRecords r r.order)

/-- What is expected of the documents: every figure is that of the actions it names. -/
def GasPartition (r : Run) (routes : List Route) : Prop := GasTotals r routes ∧ CarrierSplit r routes

variable {order : List String} {routes : List Route} {succeeded : String → Nat → Bool}
  {receiptGas : String → Nat → BitVec 64}
  {journal : List ActionRecord}

/-- A run that starts afresh has those figures. -/
theorem gasTotals (hd : order.Nodup) : GasTotals (.start order (fun _ _ => false) receiptGas []) routes := by
  obtain ⟨bootstrap, application, h⟩ := deployed (r := .start order (fun _ _ => false) receiptGas []) routes rfl
  have hprotocol : ((Run.start order (fun _ _ => false) receiptGas []).deploy routes).protocolRecords = bootstrap :=
    h.protocolRecords
  have happ :
      ((Run.start order (fun _ _ => false) receiptGas []).deploy routes).appRecords = application := h.appRecords
  have horder : ((Run.start order (fun _ _ => false) receiptGas []).deploy routes).order = order := h.order
  obtain ⟨htotal, hchains, -⟩ :=
    protocolGasDocument_eq (r := (Run.start order (fun _ _ => false) receiptGas []).deploy routes)
    ((congrArg List.Nodup horder).mpr hd) fun record hr => by
      rw [horder]
      rw [hprotocol] at hr
      exact (h.mem record hr).1
  obtain ⟨happlication, hclassified, hcomponents⟩ := deploymentGasDocument_eq
    ((Run.start order (fun _ _ => false) receiptGas []).deploy routes)
  refine ⟨hchains.trans (by rw [horder]; rfl), htotal, ?_, happlication, ?_, hclassified, hcomponents,
    fun record record' hr hr' => ?_, ?_⟩
  · rw [hprotocol]
    exact h.perm
  · rw [happ]
    exact h.sends
  · rw [hprotocol] at hr
    rw [happ] at hr'
    exact h.disjoint record record' hr hr'
  · rw [h.journal, hprotocol, happ]
    simp [Run.start]

/-- All gas of the bootstrap is counted for LayerZero. -/
theorem carriers_of_bootstrap (hd : order.Nodup) :
    ((Run.start order succeeded receiptGas journal).deploy routes).protocolGasDocument.hyperlane = .zero ∧
      ((Run.start order succeeded receiptGas journal).deploy routes).protocolGasDocument.layerZero =
        gasOf ((Run.start order succeeded receiptGas journal).deploy routes).protocolRecords := by
  obtain ⟨bootstrap, application, h⟩ := deployed (r := .start order succeeded receiptGas journal) routes rfl
  have hrecords : ((Run.start order succeeded receiptGas journal).deploy routes).protocolRecords = bootstrap :=
    h.protocolRecords
  have horder := h.order
  obtain ⟨-, -, hhyperlane, hlayerZero⟩ :=
    protocolGasDocument_eq (r := (Run.start order succeeded receiptGas journal).deploy routes)
    (horder ▸ hd) fun record hr => horder ▸ (h.mem record (hrecords ▸ hr)).1
  rw [hrecords] at hhyperlane hlayerZero ⊢
  rw [hhyperlane, hlayerZero, List.filter_eq_nil_iff.mpr fun record hr => by simp [(h.mem record hr).2],
    List.filter_eq_self.mpr fun record hr => by simp [(h.mem record hr).2]]
  exact ⟨rfl, rfl⟩

/-- Where there is a chain, the carriers do not have the figures of what their bootstraps execute. -/
theorem not_carrierSplit (hd : order.Nodup) (hne : order ≠ []) :
    ¬ CarrierSplit (.start order succeeded receiptGas journal) routes := by
  rintro ⟨hsplit, -⟩
  rw [(carriers_of_bootstrap hd).1] at hsplit
  obtain ⟨bootstrap, application, h⟩ := deployed (r := .start order succeeded receiptGas journal) routes rfl
  have hcount : 0 = (hyperlaneRecords (.start order succeeded receiptGas journal) order).length :=
    congrArg ChainGasDocument.transactionCount hsplit
  have hlength : (hyperlaneRecords (.start order succeeded receiptGas journal) order).length =
      hyperlaneLabels.length * order.length :=
    h.hyperlane_length
  rw [← hcount] at hlength
  have hpos : 0 < order.length := List.length_pos_of_ne_nil hne
  have : 0 < hyperlaneLabels.length * order.length := Nat.mul_pos (by decide) hpos
  omega

/-! ## Requests -/

/-- The chains of a request have different roles, and there are at least two. -/
theorem order_of_validate {chainCount : Nat} {requested : List String}
    (h : validate chainCount requested = .ok (order, routes)) :
    order.Nodup ∧ order ≠ [] := by
  obtain ⟨_, hcount, h⟩ := bind_eq_ok.mp h
  obtain ⟨_, -, h⟩ := bind_eq_ok.mp h
  obtain ⟨rfl, -⟩ := Prod.mk.inj (Except.ok.inj h)
  have hcount : ¬ (chainCount < 2 ∨ chainRoles.length < chainCount) := revertIf_eq_ok.mp hcount
  have hnodup : chainRoles.Nodup := by decide
  refine ⟨(List.take_sublist chainCount chainRoles).nodup hnodup, fun hnil => ?_⟩
  obtain hzero | hempty := List.take_eq_nil_iff.mp hnil
  · omega
  · exact absurd hempty (by decide)

/-- Every deployment that starts afresh has all figures but those of the carriers. -/
theorem gasTotals_of_validate {chainCount : Nat} {requested : List String}
    (h : validate chainCount requested = .ok (order, routes)) (receiptGas : String → Nat → BitVec 64) :
    GasTotals (.start order (fun _ _ => false) receiptGas []) routes := by
  obtain ⟨hd, -⟩ := order_of_validate h
  exact gasTotals hd

theorem gasTotals_of_validate_two : validate 2 ["H"] = .ok (["a", "b"], [[.H]]) ∧
    GasTotals (.start ["a", "b"] (fun _ _ => false) (fun _ _ => 21000) []) [[.H]] :=
  ⟨rfl, gasTotals_of_validate (show validate 2 ["H"] = .ok (["a", "b"], [[.H]]) from rfl) _⟩

/-- No deployment has the documents that are expected of it. -/
theorem not_gasPartition {chainCount : Nat} {requested : List String}
    (h : validate chainCount requested = .ok (order, routes)) (succeeded : String → Nat → Bool)
    (receiptGas : String → Nat → BitVec 64) (journal : List ActionRecord) :
    ¬ GasPartition (.start order succeeded receiptGas journal) routes := by
  obtain ⟨hd, hne⟩ := order_of_validate h
  intro hp
  exact not_carrierSplit hd hne hp.2

theorem not_gasPartition_two : validate 2 ["H"] = .ok (["a", "b"], [[.H]]) ∧
    ¬ GasPartition (.start ["a", "b"] (fun _ _ => false) (fun _ _ => 21000) []) [[.H]] :=
  ⟨rfl, not_gasPartition (show validate 2 ["H"] = .ok (["a", "b"], [[.H]]) from rfl) _ _ _⟩

theorem not_gasPartition_one_hop :
    ¬ GasPartition (.start ["a", "b"] (fun _ _ => false) (fun _ _ => 21000) []) [[.H]] := by
  intro h
  exact not_carrierSplit (by decide) (by decide) h.2

end Xir.Impl.DeploymentGas
