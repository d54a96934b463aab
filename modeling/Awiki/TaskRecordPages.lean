import Awiki.AcpTaskLifecycle
import Awiki.KeysetPages

/-!
# Pages of the task records of a session

`page_for_sources` reads the records of a session in descending order of their rowids.  A page is
cut by a limit on its rows, with one row of look-ahead, and by a budget on its raw bytes.  Records
are inserted and updated in place between two requests.  The pages that the cursors lead through
are the records that matched at the first request.
-/

namespace Awiki
namespace Acp

open Paging Rows Tx

/-! ## Pages -/

structure TaskRow where
  rowid : Nat
  data : TaskRecord

/-- Rows are never deleted, so SQLite numbers them from one in the order of their insertion. -/
def AcpDb.taskRows (db : AcpDb) : List TaskRow :=
  (db.records.zipIdx 1).map fun entry => ⟨entry.2, entry.1⟩

structure TaskPage where
  tasks : List TaskRecord
  nextCursor : Option Nat
  hasMore : Bool

def pageBudget : Nat := 512 * 1024

def countWithin (bytes count : Nat) : List Nat → Nat
  | [] => count
  | size :: sizes =>
    if count > 0 ∧ bytes + size > pageBudget then count
    else countWithin (bytes + size) (count + 1) sizes

section Pages

variable (rawLen : TaskRecord → Nat) (key : String) (limit : Nat)
  (sources : Option (List String))

def selects (record : TaskRecord) : Bool :=
  record.sessionKey == key && sources.all fun sources => decide (record.sourceMessageId ∈ sources)

/-- The query of `page_for_sources`, before its limit. -/
def matching (db : AcpDb) (before : Option Nat) : List TaskRow :=
  sortDescending (·.rowid) (db.taskRows.filter fun row =>
    selects key sources row.data && before.all fun before => decide (row.rowid < before))

def pageForSources (db : AcpDb) (before : Option Nat) : TaskPage :=
  let limit := max 1 (min limit 20)
  let rows := (matching key sources db before).take (limit + 1)
  let count := countWithin 0 0 ((rows.take limit).map fun row => rawLen row.data)
  let more := decide (rows.length > count)
  let rows := rows.take count
  { tasks := rows.map (·.data)
    nextCursor := if more then rows.getLast?.map (·.rowid) else none
    hasMore := more }

/-! ## Writes between the requests -/

/-- The records that `persist` is given: captured from a work, with the revision of the saved
session.  A run has one task, as the row of a run is inserted once. -/
def TaskRecord.IsCaptured (task : String → RuntimeTask) (record : TaskRecord) : Prop :=
  ∃ (session : Session) (work : Work) (state : TaskState) (includeOutput : Bool) (revision : Nat),
    work.task = task work.runId ∧
      record = { session.capture work state includeOutput with revision := revision }

inductive TaskWrite where
  | persist (record : TaskRecord)
  | deliveryIn (idempotencyKey : String) (state : DeliveryState) (messageId : Option String)
  /-- A write to the other tables. -/
  | elsewhere

def TaskWrite.call : TaskWrite → Tx String AcpDb Unit
  | .persist record => Acp.persist record
  | .deliveryIn idempotencyKey state messageId => Acp.deliveryIn idempotencyKey state messageId
  | .elsewhere => pure ()

/-- A write that fails is rolled back. -/
def WriteStep (task : String → RuntimeTask) (s : AcpDb) (write : TaskWrite) (t : AcpDb) : Prop :=
  (∀ record, write = .persist record → record.IsCaptured task) ∧
    (write.call.run s = .ok () t ∨ (∃ e u, write.call.run s = .error e u) ∧ t = s ∨
      write = .elsewhere ∧ t.records = s.records)

/-- The pages that are read by following the cursors from `before`, each from the table as the
writes since the previous page have left it; `last` is the cursor of the last of them. -/
inductive Walk (task : String → RuntimeTask) :
    AcpDb → Option Nat → List TaskPage → Option Nat → Prop
  | page (db : AcpDb) (before : Option Nat) :
      Walk task db before [pageForSources rawLen key limit sources db before]
        (pageForSources rawLen key limit sources db before).nextCursor
  | next {db db' : AcpDb} {before : Option Nat} {writes : List TaskWrite}
      {pages : List TaskPage} {last : Option Nat} {cursor : Nat}
      (hcursor : (pageForSources rawLen key limit sources db before).nextCursor = some cursor)
      (hrun : Run (WriteStep task) db writes db')
      (hrest : Walk task db' (some cursor) pages last) :
      Walk task db before (pageForSources rawLen key limit sources db before :: pages) last

end Pages

/-! ## The records behind the writes -/

variable {task : String → RuntimeTask} {s t db db' : AcpDb}

structure AcpDb.Sourced (task : String → RuntimeTask) (db : AcpDb) : Prop where
  unique : UniqueKey (·.runId) db.records
  sources : ∀ record ∈ db.records, record.sourceMessageId = (task record.runId).sourceMessageId

inductive Writes (task : String → RuntimeTask) (s t : AcpDb) : Prop where
  | same (h : t.records = s.records)
  | update (record : TaskRecord) (hsource : record.sourceMessageId = (task record.runId).sourceMessageId)
      (hkey : ∀ old ∈ s.records, old.runId = record.runId → old.sessionKey = record.sessionKey)
      (h : t.records = updateWhere (·.runId == record.runId) (fun _ => record) s.records)
  | insert (record : TaskRecord) (hsource : record.sourceMessageId = (task record.runId).sourceMessageId)
      (hfresh : ∀ old ∈ s.records, old.runId ≠ record.runId)
      (h : t.records = s.records ++ [record])

theorem AcpDb.Sourced.record? (hs : s.Sourced task) {run : String} {prior old : TaskRecord}
    (hprior : s.record? run = some prior) (hold : old ∈ s.records) (hrun : old.runId = run) :
    old = prior := by
  have hsame : prior.runId = run := by simpa using List.find?_some hprior
  exact hs.unique.eq_of_key_eq hold (List.mem_of_find?_eq_some hprior) (hrun.trans hsame.symm)

theorem writeRecord_writes {prior : Option TaskRecord} {record : TaskRecord}
    (hsource : record.sourceMessageId = (task record.runId).sourceMessageId)
    (hkey : ∀ old ∈ s.records, old.runId = record.runId → old.sessionKey = record.sessionKey)
    (h : (writeRecord prior record).run s = .ok () t) : Writes task s t := by
  have hqueue := execute_bind_ok.mp h
  have hrecords : t.records = upsertWhere (·.runId == record.runId) record (fun _ => record)
      s.records :=
    Keeps.forEach (f := AcpDb.records) (fun id _ => queue_keeps (fun _ _ => rfl) record id) _ _ _
      hqueue
  unfold upsertWhere at hrecords
  split at hrecords
  · exact .update record hsource hkey hrecords
  · rename_i hnone
    refine .insert record hsource (fun old hold heq => hnone ?_) hrecords
    exact List.any_eq_true.mpr ⟨old, hold, beq_iff_eq.mpr heq⟩

theorem persist_writes {record : TaskRecord} (hs : s.Sourced task)
    (hsource : record.sourceMessageId = (task record.runId).sourceMessageId)
    (h : (persist record).run s = .ok () t) : Writes task s t := by
  obtain ⟨prior, hprior, hrest⟩ := query_bind_ok.mp h
  cases prior with
  | none =>
    refine writeRecord_writes hsource (fun old hold heq => ?_) hrest
    exact absurd (beq_iff_eq.mpr heq) (List.find?_eq_none.mp hprior old hold)
  | some prior =>
    dsimp only at hrest
    split at hrest
    · cases hrest
    · rename_i hkey
      split at hrest
      · obtain ⟨-, rfl⟩ := pure_ok.mp hrest
        exact .same rfl
      · refine writeRecord_writes hsource (fun old hold heq => ?_) hrest
        rw [hs.record? hprior hold heq]
        exact not_not.mp hkey

theorem deliveryIn_writes {idempotencyKey : String} {state : DeliveryState}
    {messageId : Option String} (hs : s.Sourced task)
    (h : (deliveryIn idempotencyKey state messageId).run s = .ok () t) : Writes task s t := by
  obtain ⟨_, -, hfound⟩ := query_bind_ok.mp h
  obtain ⟨row, -, hloaded⟩ := orError_bind_ok.mp hfound
  obtain ⟨record, hrecord, hrest⟩ := query_bind_ok.mp hloaded
  cases record with
  | none =>
    obtain ⟨-, rfl⟩ := pure_ok.mp hrest
    exact .same rfl
  | some record =>
    have hrun : record.runId = row.runId := by simpa using List.find?_some hrecord
    dsimp only at hrest
    split at hrest
    · obtain ⟨-, rfl⟩ := pure_ok.mp hrest
      exact .same rfl
    split at hrest
    · cases hrest
    have hqueue := execute_bind_ok.mp hrest
    have hrecords := queue_keeps (f := AcpDb.records) (fun _ _ => rfl) _ _ _ _ _ hqueue
    rw [← hrun] at hrecords
    refine .update { record with
      delivery := { state, messageId }, revision := record.revision + 1 } ?_ ?_ hrecords
    · exact hs.sources record (List.mem_of_find?_eq_some hrecord)
    · intro old hold heq
      rw [hs.record? hrecord hold (heq.trans hrun)]

theorem TaskRecord.IsCaptured.source {record : TaskRecord} (h : record.IsCaptured task) :
    record.sourceMessageId = (task record.runId).sourceMessageId := by
  obtain ⟨session, work, state, includeOutput, revision, hwork, rfl⟩ := h
  exact congrArg RuntimeTask.sourceMessageId hwork

theorem WriteStep.writes (hs : s.Sourced task) {write : TaskWrite}
    (h : WriteStep task s write t) : Writes task s t := by
  obtain ⟨hcaptured, h | ⟨-, rfl⟩ | ⟨-, h⟩⟩ := h
  · cases write with
    | persist record => exact persist_writes hs (hcaptured record rfl).source h
    | deliveryIn idempotencyKey state messageId => exact deliveryIn_writes hs h
    | elsewhere =>
      obtain ⟨-, rfl⟩ := pure_ok.mp h
      exact .same rfl
  · exact .same rfl
  · exact .same h

theorem Writes.sourced (h : Writes task s t) (hs : s.Sourced task) : t.Sourced task := by
  cases h with
  | same h => exact ⟨h ▸ hs.unique, h ▸ hs.sources⟩
  | update record hsource hkey h =>
    refine ⟨?_, fun row hrow => ?_⟩
    · unfold UniqueKey
      rw [h, map_updateWhere_of_pos (by exact fun row _ hrow => (beq_iff_eq.mp hrow).symm)]
      exact hs.unique
    · rw [h] at hrow
      obtain ⟨old, hold, rfl⟩ := mem_updateWhere.mp hrow
      split
      · exact hsource
      · exact hs.sources old hold
  | insert record hsource hfresh h =>
    refine ⟨h ▸ hs.unique.append_singleton hfresh, fun row hrow => ?_⟩
    rw [h, List.mem_append, List.mem_singleton] at hrow
    rcases hrow with hrow | rfl
    · exact hs.sources row hrow
    · exact hsource

structure RowKey where
  rowid : Nat
  runId : String
  sessionKey : String

def TaskRow.rowKey (row : TaskRow) : RowKey := ⟨row.rowid, row.data.runId, row.data.sessionKey⟩

theorem AcpDb.taskRows_ascending (db : AcpDb) :
    db.taskRows.Pairwise fun a b => a.rowid < b.rowid := by
  unfold AcpDb.taskRows
  rw [List.pairwise_map, ← List.pairwise_map (f := Prod.snd), List.zipIdx_map_snd]
  exact List.pairwise_lt_range'

theorem AcpDb.taskRows_rowKeys (db : AcpDb) :
    db.taskRows.map (·.rowKey) =
      ((db.records.map fun record => (record.runId, record.sessionKey)).zipIdx 1).map
        fun entry => ⟨entry.2, entry.1.1, entry.1.2⟩ := by
  rw [AcpDb.taskRows, List.map_map, List.zipIdx_map, List.map_map]
  rfl

/-- Rows keep their keys and their places; a new row has the largest rowid. -/
theorem Writes.rowKeys (h : Writes task s t) :
    ∃ fresh, t.taskRows.map (·.rowKey) = s.taskRows.map (·.rowKey) ++ fresh ∧
      ∀ row ∈ s.taskRows, ∀ other ∈ fresh, row.rowid < other.rowid := by
  cases h with
  | same h => exact ⟨[], by simp [AcpDb.taskRows, h], by simp⟩
  | update record hsource hkey h =>
    refine ⟨[], ?_, by simp⟩
    rw [t.taskRows_rowKeys, s.taskRows_rowKeys, h, List.append_nil, map_updateWhere_of_pos]
    intro old hold heq
    rw [hkey old hold (beq_iff_eq.mp heq), beq_iff_eq.mp heq]
  | insert record hsource hfresh h =>
    refine ⟨[⟨s.records.length + 1, record.runId, record.sessionKey⟩], ?_, ?_⟩
    · rw [t.taskRows_rowKeys, s.taskRows_rowKeys, h, List.map_append, List.zipIdx_append,
        List.map_append, List.length_map, Nat.add_comm 1]
      rfl
    · intro row hrow other hother
      obtain ⟨entry, hentry, rfl⟩ := List.mem_map.mp hrow
      have hlt := List.snd_lt_add_of_mem_zipIdx hentry
      rw [List.mem_singleton.mp hother]
      dsimp only
      omega

/-! ## One page -/

theorem countWithin_spec (bytes count : Nat) (sizes : List Nat)
    (h : 1 < count → bytes ≤ pageBudget) :
    ∃ k ≤ sizes.length, countWithin bytes count sizes = count + k ∧
      (1 < count + k → bytes + (sizes.take k).sum ≤ pageBudget) ∧
      (count = 0 → sizes ≠ [] → 0 < k) := by
  induction sizes generalizing bytes count with
  | nil => exact ⟨0, le_rfl, rfl, by simpa using h, by simp⟩
  | cons size sizes ih =>
    rw [countWithin]
    split
    · rename_i hfull
      exact ⟨0, Nat.zero_le _, rfl, by simpa using h, by omega⟩
    · rename_i hfits
      obtain ⟨k, hk, hcount, hbytes, -⟩ := ih (bytes + size) (count + 1) (by omega)
      refine ⟨k + 1, by simpa using hk, by omega, fun hmany => ?_, by omega⟩
      have := hbytes (by omega)
      rw [List.take_succ_cons, List.sum_cons]
      omega

section Pages

variable (rawLen : TaskRecord → Nat) (key : String) (limit : Nat)
  (sources : Option (List String))

/-- A page is a first part of the matching rows, and its cursor is the last rowid of that part. -/
theorem pageForSources_spec (db : AcpDb) (before : Option Nat) :
    ∃ front back, matching key sources db before = front ++ back ∧
      (pageForSources rawLen key limit sources db before).tasks = front.map (·.data) ∧
      (front = [] → back = []) ∧
      (1 < front.length → (front.map fun row => rawLen row.data).sum ≤ pageBudget) ∧
      (pageForSources rawLen key limit sources db before).nextCursor =
        if back = [] then none else front.getLast?.map (·.rowid) := by
  generalize hrows : matching key sources db before = rows
  obtain ⟨k, hk, hcount, hbytes, hpos⟩ := countWithin_spec 0 0
    ((rows.take (max 1 (min limit 20))).map fun row => rawLen row.data) (by omega)
  rw [List.length_map, List.length_take] at hk
  have hpage : pageForSources rawLen key limit sources db before =
      { tasks := (rows.take k).map (·.data)
        nextCursor := if k < rows.length then (rows.take k).getLast?.map (·.rowid) else none
        hasMore := decide (k < rows.length) } := by
    have hlimit : min (max 1 (min limit 20)) (max 1 (min limit 20) + 1) = max 1 (min limit 20) := by
      omega
    have hkept : min k (max 1 (min limit 20) + 1) = k := by omega
    have hmore : k < min (max 1 (min limit 20) + 1) rows.length ↔ k < rows.length := by omega
    simp only [pageForSources, hrows, List.take_take, hlimit, hcount, Nat.zero_add, hkept,
      List.length_take, gt_iff_lt, hmore, decide_eq_true_eq]
  refine ⟨rows.take k, rows.drop k, (List.take_append_drop k rows).symm, by rw [hpage], ?_, ?_, ?_⟩
  · intro hnone
    rcases List.take_eq_nil_iff.mp hnone with rfl | rfl
    · by_contra hrest
      refine absurd (hpos rfl ?_) (Nat.lt_irrefl 0)
      simpa using hrest
    · exact List.drop_nil
  · intro hmany
    rw [List.length_take] at hmany
    have hsum := hbytes (by omega)
    rw [← List.map_take, List.take_take, min_eq_left (by omega), Nat.zero_add] at hsum
    exact hsum
  · rw [hpage]
    by_cases hlt : k < rows.length
    · simp [hlt, Nat.not_le.mpr hlt]
    · simp [hlt, Nat.not_lt.mp hlt]

end Pages

/-! ## Walks -/

section Walks

variable {rawLen : TaskRecord → Nat} {key : String} {limit : Nat}
  {sources : Option (List String)} {before last : Option Nat} {pages : List TaskPage}

def matchingKeys (task : String → RuntimeTask) (key : String) (sources : Option (List String))
    (db : AcpDb) : List RowKey :=
  ((db.taskRows.map (·.rowKey)).filter fun row => row.sessionKey == key &&
    sources.all fun sources => decide ((task row.runId).sourceMessageId ∈ sources)).reverse

def RowKey.isBefore (before : Option Nat) (row : RowKey) : Bool :=
  before.all fun before => decide (row.rowid < before)

theorem matching_eq : matching key sources db before = (db.taskRows.filter fun row =>
    selects key sources row.data && before.all fun before => decide (row.rowid < before)).reverse :=
  sortDescending_eq_of_perm (List.reverse_perm _)
    (List.pairwise_reverse.mpr (db.taskRows_ascending.sublist List.filter_sublist))

theorem data_mem {row : TaskRow} (h : row ∈ db.taskRows) : row.data ∈ db.records := by
  obtain ⟨entry, hentry, rfl⟩ := List.mem_map.mp h
  exact List.fst_mem_of_mem_zipIdx hentry

theorem AcpDb.Sourced.matching_rowKeys (hs : db.Sourced task) :
    (matching key sources db before).map (·.rowKey) =
      (matchingKeys task key sources db).filter (RowKey.isBefore before) := by
  rw [matching_eq, matchingKeys, List.map_reverse, List.filter_reverse, List.filter_filter,
    List.filter_map]
  congr 2
  refine List.filter_congr fun row hrow => ?_
  simp only [selects, RowKey.isBefore, TaskRow.rowKey, Function.comp,
    hs.sources row.data (data_mem hrow)]
  exact Bool.and_comm _ _

theorem matchingKeys_descending :
    Descending (·.rowid) (matchingKeys task key sources db) := by
  unfold matchingKeys
  rw [Descending, List.pairwise_reverse]
  apply List.Pairwise.sublist List.filter_sublist
  rw [List.pairwise_map]
  exact db.taskRows_ascending

theorem AcpDb.Sourced.run {writes : List TaskWrite} (hs : db.Sourced task)
    (hrun : Run (WriteStep task) db writes db') : db'.Sourced task :=
  hrun.invariant (fun _ _ _ hs hstep => (hstep.writes hs).sourced hs) hs

/-- Below the rowid of a stored record the writes change nothing. -/
theorem matchingKeys_run {writes : List TaskWrite} (hs : db.Sourced task)
    (hrun : Run (WriteStep task) db writes db') {row : RowKey}
    (hrow : row ∈ matchingKeys task key sources db) :
    (matchingKeys task key sources db').filter (RowKey.isBefore (some row.rowid)) =
      (matchingKeys task key sources db).filter (RowKey.isBefore (some row.rowid)) := by
  induction hrun with
  | nil => rfl
  | @cons s t u write writes hstep hrest ih =>
    obtain ⟨fresh, hkeys, hlarger⟩ := (hstep.writes hs).rowKeys
    have hmore : matchingKeys task key sources t =
        (fresh.filter fun row => row.sessionKey == key &&
          sources.all fun sources => decide ((task row.runId).sourceMessageId ∈ sources)).reverse ++
        matchingKeys task key sources s := by
      simp only [matchingKeys, hkeys, List.filter_append, List.reverse_append]
    rw [ih ((hstep.writes hs).sourced hs) (hmore ▸ List.mem_append_right _ hrow), hmore,
      List.filter_append, List.filter_eq_nil_iff.mpr, List.nil_append]
    intro other hother
    obtain ⟨old, hold, rfl⟩ :=
      List.mem_map.mp (List.mem_of_mem_filter (List.mem_reverse.mp hrow))
    have hlt := hlarger old hold other (List.mem_of_mem_filter (List.mem_reverse.mp hother))
    simp only [RowKey.isBefore, Option.all_some, decide_eq_true_eq]
    exact lt_asymm hlt

/-- After the writes the rows before the cursor of a page are the rest of that page. -/
theorem matching_after_page {writes : List TaskWrite} {front back : List TaskRow} {row : TaskRow}
    (hs : db.Sourced task) (hrun : Run (WriteStep task) db writes db')
    (hrows : matching key sources db before = front ++ row :: back) :
    (matching key sources db' (some row.rowid)).map (·.rowKey) = back.map (·.rowKey) := by
  have hkeys : (matching key sources db before).map (·.rowKey) =
    (matchingKeys task key sources db).filter (RowKey.isBefore before) := hs.matching_rowKeys
  rw [hrows, List.map_append, List.map_cons] at hkeys
  have hrow : row.rowKey ∈ (matchingKeys task key sources db).filter (RowKey.isBefore before) :=
    hkeys ▸ List.mem_append_right _ List.mem_cons_self
  obtain ⟨hrow, hbefore⟩ := List.mem_filter.mp hrow
  have hdescending := matchingKeys_descending.sublist
    (List.filter_sublist (p := RowKey.isBefore before) (l := matchingKeys task key sources db))
  rw [← hkeys] at hdescending
  calc (matching key sources db' (some row.rowid)).map (·.rowKey)
      = (matchingKeys task key sources db).filter (RowKey.isBefore (some row.rowid)) := by
        rw [(hs.run hrun).matching_rowKeys]
        exact matchingKeys_run hs hrun hrow
    _ = ((matchingKeys task key sources db).filter (RowKey.isBefore before)).filter
          (RowKey.isBefore (some row.rowid)) := by
        rw [List.filter_filter]
        refine List.filter_congr fun other _ => ?_
        cases before with
        | none => simp [RowKey.isBefore]
        | some before =>
          have hlt : row.rowid < before := of_decide_eq_true hbefore
          simp only [RowKey.isBefore, Option.all_some, ← Bool.decide_and, decide_eq_decide]
          omega
    _ = back.map (·.rowKey) := by
        rw [← hkeys]
        exact Descending.filter_lt hdescending

theorem runIds_of_rowKeys {rows others : List TaskRow}
    (h : rows.map (·.rowKey) = others.map (·.rowKey)) :
    (rows.map (·.data)).map (·.runId) = (others.map (·.data)).map (·.runId) ∧
      rows.length = others.length := by
  constructor
  · have hids := congrArg (List.map RowKey.runId) h
    rw [List.map_map, List.map_map] at hids
    rw [List.map_map, List.map_map]
    exact hids
  · simpa using congrArg List.length h

/-- Every walk of pages from a well-formed table. -/
theorem Walk.enumerates (hs : db.Sourced task)
    (h : Walk rawLen key limit sources task db before pages last) :
    (last = none → (pages.flatMap (·.tasks)).map (·.runId) =
      ((matching key sources db before).map (·.data)).map (·.runId)) ∧
    (∀ page ∈ pages, page.tasks = [] → matching key sources db before = []) ∧
    pages.length ≤ max 1 (matching key sources db before).length ∧
    ∀ page ∈ pages, 1 < page.tasks.length → (page.tasks.map rawLen).sum ≤ pageBudget := by
  induction h with
  | page db before =>
    obtain ⟨front, back, hrows, htasks, hempty, hbytes, hnext⟩ :=
      pageForSources_spec rawLen key limit sources db before
    refine ⟨fun hlast => ?_, ?_, by simp, ?_⟩
    · have hback : back = [] := by
        by_contra hback
        rw [hnext, if_neg hback, Option.map_eq_none_iff, List.getLast?_eq_none_iff] at hlast
        exact hback (hempty hlast)
      rw [List.flatMap_singleton, htasks, hrows, hback, List.append_nil]
    · intro page hpage hnone
      rw [List.mem_singleton.mp hpage, htasks, List.map_eq_nil_iff] at hnone
      rw [hrows, hnone, hempty hnone]
      rfl
    · intro page hpage hmany
      rw [List.mem_singleton.mp hpage, htasks] at hmany ⊢
      rw [List.map_map]
      exact hbytes (by simpa using hmany)
  | @next db db' before writes pages last cursor hcursor hrun hrest ih =>
    obtain ⟨front, back, hrows, htasks, hempty, hbytes, hnext⟩ :=
      pageForSources_spec rawLen key limit sources db before
    have hback : back ≠ [] := by
      intro hback
      rw [hnext, if_pos hback] at hcursor
      cases hcursor
    rw [hnext, if_neg hback] at hcursor
    obtain ⟨row, hlast, rfl⟩ := Option.map_eq_some_iff.mp hcursor
    obtain ⟨initial, rfl⟩ := List.getLast?_eq_some_iff.mp hlast
    have hsplit : matching key sources db before = initial ++ row :: back := by
      rw [hrows, List.append_assoc, List.singleton_append]
    obtain ⟨hids, hlength⟩ := runIds_of_rowKeys (matching_after_page hs hrun hsplit)
    obtain ⟨hall, hfull, hcount, hbudget⟩ := ih (hs.run hrun)
    have hpositive : 0 < back.length := List.length_pos_iff.mpr hback
    refine ⟨fun hlast => ?_, ?_, ?_, ?_⟩
    · rw [List.flatMap_cons, List.map_append, hall hlast, hids, htasks, hrows,
        ← List.map_append, ← List.map_append]
    · rw [List.forall_mem_cons]
      refine ⟨fun hnone => ?_, fun page hpage hnone => ?_⟩
      · simp [htasks] at hnone
      · rw [hfull page hpage hnone] at hlength
        exact absurd hlength.symm hpositive.ne'
    · rw [hlength] at hcount
      rw [hrows, List.length_append, List.length_append, List.length_cons, List.length_singleton]
      omega
    · rw [List.forall_mem_cons]
      refine ⟨fun hmany => ?_, hbudget⟩
      rw [htasks] at hmany ⊢
      rw [List.map_map]
      exact hbytes (by simpa using hmany)

/-- From every table that writes have made from an empty one, the pages give each matching record of the first
request once, in descending order of the rowids; they come to an end, no page is empty unless there
is nothing to give, and a page of several records is within the budget. -/
theorem task_pages_enumerate {start : AcpDb} {past : List TaskWrite} (hstart : start.records = [])
    (hpast : Run (WriteStep task) start past db)
    (hwalk : Walk rawLen key limit sources task db none pages last) :
    (last = none → (pages.flatMap (·.tasks)).map (·.runId) =
      ((matching key sources db none).map (·.data)).map (·.runId)) ∧
    (((matching key sources db none).map (·.data)).map (·.runId)).Nodup ∧
    Descending (·.rowid) (matching key sources db none) ∧
    (∀ row, row ∈ matching key sources db none ↔
      row ∈ db.taskRows ∧ selects key sources row.data = true) ∧
    pages.length ≤ max 1 (matching key sources db none).length ∧
    (∀ page ∈ pages, page.tasks = [] → matching key sources db none = []) ∧
    ∀ page ∈ pages, 1 < page.tasks.length → (page.tasks.map rawLen).sum ≤ pageBudget := by
  have hs : db.Sourced task :=
    AcpDb.Sourced.run ⟨hstart ▸ .nil _, hstart ▸ List.forall_mem_nil _⟩ hpast
  obtain ⟨hall, hfull, hcount, hbudget⟩ := hwalk.enumerates hs
  have hperm : (matching key sources db none).Perm
    (db.taskRows.filter fun row => selects key sources row.data && true) := sortDescending_perm _
  refine ⟨hall, ?_, ?_, fun row => ?_, hcount, hfull, hbudget⟩
  · have hdata : db.taskRows.map (·.data) = db.records := by
      rw [AcpDb.taskRows, List.map_map]
      exact List.zipIdx_map_fst _ _
    have hunique : ((db.taskRows.map (·.data)).map (·.runId)).Nodup := hdata.symm ▸ hs.unique
    exact ((hperm.map _).map _).nodup_iff.mpr
      (hunique.sublist ((List.filter_sublist.map _).map _))
  · apply sortDescending_descending
    exact (db.taskRows_ascending.sublist List.filter_sublist).imp fun h => h.ne
  · exact hperm.mem_iff.trans (by simp [List.mem_filter])

end Walks

namespace TaskRecordSample

def record (runId : String) (state : TaskState) : TaskRecord :=
  (Session.new "session" Sample.task).capture { task := Sample.task, runId } state true

def written (db : AcpDb) (record : TaskRecord) : AcpDb :=
  match (persist record).run db with
  | .ok _ t => t
  | .error _ _ => db

def stored : AcpDb := written (written {} (record "run-a" .running)) (record "run-b" .running)

def later : AcpDb := written (written stored (record "run-c" .running)) (record "run-a" .stopping)

theorem write_step (db : AcpDb) (runId : String) (state : TaskState) (hwrites :
      (persist (record runId state)).run db = .ok () (written db (record runId state))) :
    WriteStep (fun _ => Sample.task) db (.persist (record runId state))
      (written db (record runId state)) := by
  refine ⟨?_, .inl hwrites⟩
  rintro _ ⟨⟩
  exact ⟨Session.new "session" Sample.task, ⟨Sample.task, runId⟩, state, true, 0, rfl, rfl⟩

def pageOf (db : AcpDb) (before : Option Nat) : TaskPage :=
  pageForSources (fun _ => 0) "session" 1 none db before

/-- The cursor of a page leads past a record that is inserted to one that is updated. -/
theorem two_page_walk :
    (pageOf stored none).nextCursor = some 2 ∧
      ([pageOf stored none, pageOf later (some 2)].flatMap (·.tasks)).map (·.runId) =
        ["run-b", "run-a"] ∧
      (pageOf later (some 2)).tasks.map (·.state) = [.stopping] := by
  have hpast : Run (WriteStep fun _ => Sample.task) {} _ stored :=
    .cons (write_step _ "run-a" .running rfl) (.single (write_step _ "run-b" .running rfl))
  have hbetween : Run (WriteStep fun _ => Sample.task) stored _ later :=
    .cons (write_step _ "run-c" .running rfl) (.single (write_step _ "run-a" .stopping rfl))
  have hwalk : Walk (fun _ => 0) "session" 1 none (fun _ => Sample.task) stored none
    [pageOf stored none, pageOf later (some 2)] none := .next rfl hbetween (.page later (some 2))
  exact ⟨rfl, (task_pages_enumerate rfl hpast hwalk).1 rfl, rfl⟩

end TaskRecordSample

end Acp
end Awiki
