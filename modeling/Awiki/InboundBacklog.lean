import Awiki.PeerConsistency
import Mathlib.Data.List.Dedup

/-!
# Messages that wait for their peer

A message whose peer DID belongs to no verified Persona is held in the backlog, and the
projection of a Persona replays what waits for any of its DIDs.  So a message should wait
only as long as its peer DID is unresolved; the maintenance skips the DIDs that resolve.

There are two ways around this.  A verified transition binds a DID and replays nothing, and
a message that is held under the entry of another one makes that entry wait again, with the
record and the peer DID that it had.
-/

namespace Awiki
namespace LocalState

open Tx

variable {κ : Type} {s t : PeerDb κ} {codes : PeerCodes} {context : PeerContext κ}
  {binding : Option SyncThreadBinding} {identifier : IdentifierRow} {source : BacklogSource}
  {route : RouteRow}

/-! ## Ingesting messages -/

/-- `RemoteMessageIngestOutcome`. -/
structure IngestOutcome where
  storedMessages : Nat := 0
  backloggedMessages : Nat := 0
  hydrationProbesResolved : Nat := 0
  resolutionBackloggedMessages : Nat := 0
  wireConflictBackloggedMessages : Nat := 0
  deriving DecidableEq

def ingestSource (eventType : String) (record : MessageRecord) : BacklogSource where
  eventId := eventType ++ ":" ++ Text.trim record.msgId
  eventSeq := toString (record.serverSeq.getD 0)
  eventType := eventType

def isWireConflict : ImError → Bool
  | .messageWireIdentityConflict _ => true
  | _ => false

/-- The body of the loop of `ingest_remote_messages`. -/
def ingestMessage (context : PeerContext κ) (eventType : String)
    (progress : IngestOutcome × PeerDb κ) (record : MessageRecord) :
    Except ImError (IngestOutcome × PeerDb κ) :=
  let outcome := progress.1
  let db := progress.2
  match canonicalizeInboundMessage context.messages db.others record with
  | .ok record =>
    match upsertMessageRecord context.messages db record with
    | .ok stored =>
      .ok ({ outcome with storedMessages := outcome.storedMessages + 1 }, stored.2)
    | .error error =>
      if isWireConflict error then do
        let held ← storeWithThreadBinding db (ingestSource eventType record) record error none
        .ok ({ outcome with
          backloggedMessages := outcome.backloggedMessages + 1
          wireConflictBackloggedMessages :=
            outcome.wireConflictBackloggedMessages + 1 }, held)
      else .error error
  | .error error =>
    if isResolutionError error then do
      let held ← storeWithThreadBinding db (ingestSource eventType record) record error none
      .ok ({ outcome with
        backloggedMessages := outcome.backloggedMessages + 1
        resolutionBackloggedMessages := outcome.resolutionBackloggedMessages + 1 }, held)
    else .error error

/-- `ingest_remote_messages`; its callers run it in a transaction. -/
def ingestRemoteMessages (context : PeerContext κ) (records : List MessageRecord)
    (sourceEventType : String) (db : PeerDb κ) : Except ImError (IngestOutcome × PeerDb κ) :=
  records.foldlM (ingestMessage context (Text.trim sourceEventType)) ({}, db)

def holdMessage (context : PeerContext κ) (source : BacklogSource) (record : MessageRecord)
    (binding : Option SyncThreadBinding) (db : PeerDb κ) : Except ImError (PeerDb κ) :=
  match canonicalizeInboundMessage context.messages db.others record with
  | .ok _ => .ok db
  | .error error => storeWithThreadBinding db source record error binding

/-- `unresolved_dids`: the DIDs that the maintenance looks up. -/
def PeerTables.unresolvedDids (codes : PeerCodes) (peers : PeerTables κ) (owner : String)
    (dids : List String) : Except ImError (List String) := do
  refuse (Text.isBlank owner) (invalidInput "owner_identity_id" "owner identity id is required")
  let checked ← dids.mapM fun text => do
    let did ← parseDid (Text.trim text)
    let resolved ← peers.resolveByDid codes (Text.trim owner) did
    .ok (did, resolved.isNone)
  .ok (sortedSet ((checked.filter (·.2)).map (·.1)))

/-! ## DIDs that resolve -/

/-- `resolve_by_did` finds a Persona. -/
def PeerTables.Resolves (codes : PeerCodes) (peers : PeerTables κ) (owner did : String) : Prop :=
  ∃ persona, peers.resolveByDid codes owner did = .ok (some persona)

structure Resolution (codes : PeerCodes) (peers : PeerTables κ) (owner did : String)
    (identifier : IdentifierRow) (row : PersonaRow) (route : RouteRow) : Prop where
  memIdentifier : identifier ∈ peers.identifiers
  key : identifier.key = (Text.trim owner, .did, Text.trim did)
  persona : peers.personas.find? (·.isPersona (Text.trim owner) identifier.peerPersonaId) =
    some row
  memRoute : route ∈ peers.routes
  isRoute : route.isRouteOf (Text.trim owner) identifier.peerPersonaId = true
  canonical : ∃ persona, PeerPersona.fromVerifiedHandle codes row.authorityNamespace
      row.authoritySubjectId row.fullHandle (some "verified") = .ok persona ∧
    persona.peerPersonaId = row.peerPersonaId ∧
    persona.directConversationId codes = route.conversationId

variable {row : PersonaRow} {owner persona : String} {peers : PeerTables κ} {did : String}
  {record : MessageRecord} {eventType : String} {progress progress' : IngestOutcome × PeerDb κ}
  {a b : MessageRecord} {v : Unit} {conversation : String}

theorem PersonaRow.id_of_find? {rows : List PersonaRow}
    (h : rows.find? (·.isPersona owner persona) = some row) :
    row.peerPersonaId = persona := by
  have hrow := List.find?_some h
  simp only [PersonaRow.isPersona, Bool.and_eq_true, beq_iff_eq] at hrow
  exact hrow.2

theorem RouteRow.isRouteOf_iff {row : RouteRow} :
    row.isRouteOf owner persona = true ↔
      row.ownerIdentityId = owner ∧ row.peerPersonaId = some persona := by
  simp [RouteRow.isRouteOf]

theorem PeerTables.Resolves.resolution (h : peers.Resolves codes owner did) :
    ∃ identifier row route, Resolution codes peers owner did identifier row route := by
  obtain ⟨persona, h⟩ := h
  unfold PeerTables.resolveByDid at h
  dsimp only at h
  split at h
  · cases h
  · rename_i row route hmatch
    unfold PeerTables.didMatch at hmatch
    obtain ⟨identifier, hidentifier, hmatch⟩ := Option.bind_eq_some_iff.mp hmatch
    obtain ⟨found, hfound, hmatch⟩ := Option.bind_eq_some_iff.mp hmatch
    obtain ⟨found', hroute, hpair⟩ := Option.map_eq_some_iff.mp hmatch
    cases hpair
    obtain ⟨p, hp, h⟩ := except_bind_ok.mp h
    split at h
    · cases h
    · rename_i hid
      split at h
      · cases h
      · rename_i hconversation
        have hkey := List.find?_some hidentifier
        have hrow := PersonaRow.id_of_find? hfound
        have hrouteOf := List.find?_some hroute
        rw [hrow] at hrouteOf
        exact ⟨identifier, row, route, List.mem_of_find?_eq_some hidentifier,
          IdentifierRow.isIdentifier_iff.mp hkey, hfound, List.mem_of_find?_eq_some hroute,
          hrouteOf, p, hp, not_not.mp hid, not_not.mp hconversation⟩

theorem PeerBase.conversation_eq (hcodes : codes.Sound) (hs : PeerBase codes s) {a b : RouteRow}
    (ha : a ∈ s.others.routes) (hb : b ∈ s.others.routes) (haOf : a.isRouteOf owner persona = true)
    (hbOf : b.isRouteOf owner persona = true) : a.conversationId = b.conversationId := by
  rw [RouteRow.isRouteOf_iff] at haOf hbOf
  obtain ⟨p, hp, hpRoute⟩ := hs.canonical a ha
  obtain ⟨q, hq, hqRoute⟩ := hs.canonical b hb
  have hsame : p.peerPersonaId = q.peerPersonaId :=
    (id_of_route hpRoute haOf.2).trans (id_of_route hqRoute hbOf.2).symm
  calc a.conversationId = p.directConversationId codes := congrArg RouteRow.conversationId hpRoute
    _ = q.directConversationId codes := hp.conversation_eq hcodes hq hsame
    _ = b.conversationId := (congrArg RouteRow.conversationId hqRoute).symm

theorem Resolution.resolves (hcodes : codes.Sound) (hs : PeerBase codes s)
    (h : Resolution codes s.others owner did identifier row route) :
    s.others.Resolves codes owner did := by
  have hidentifier : s.others.identifiers.find?
      (·.isIdentifier (Text.trim owner) .did (Text.trim did)) = some identifier := by
    apply hs.unique.find?_eq_some h.memIdentifier (IdentifierRow.isIdentifier_iff.mpr h.key)
    intro other _ hother
    exact (IdentifierRow.isIdentifier_iff.mp hother).trans h.key.symm
  have hrow : row.peerPersonaId = identifier.peerPersonaId :=
    PersonaRow.id_of_find? h.persona
  obtain ⟨found, hfound⟩ : ∃ found, s.others.routes.find?
      (·.isRouteOf (Text.trim owner) identifier.peerPersonaId) = some found := by
    apply Option.isSome_iff_exists.mp
    rw [List.find?_isSome]
    exact ⟨route, h.memRoute, h.isRoute⟩
  have hfoundOf := List.find?_some hfound
  have hsame : found.conversationId = route.conversationId :=
    hs.conversation_eq hcodes (List.mem_of_find?_eq_some hfound) h.memRoute hfoundOf h.isRoute
  obtain ⟨p, hp, hid, hconversation⟩ := h.canonical
  have hmatch : s.others.didMatch (Text.trim owner) (Text.trim did) = some (row, found) := by
    unfold PeerTables.didMatch
    rw [hidentifier, Option.bind_some, h.persona, Option.bind_some, hrow, hfound]
    rfl
  refine ⟨{ peerPersonaId := p.peerPersonaId, conversationId := p.directConversationId codes }, ?_⟩
  unfold PeerTables.resolveByDid
  simp only [hmatch, hp, bind, Except.bind, hid, hconversation, hsame, ne_eq, not_true_eq_false,
    if_false]

/-! ## What a message is resolved with -/

structure SamePeers (s t : PeerDb κ) : Prop where
  personas : t.others.personas = s.others.personas
  identifiers : t.others.identifiers = s.others.identifiers
  routes : t.others.routes = s.others.routes

namespace SamePeers

theorem refl (s : PeerDb κ) : SamePeers s s := ⟨rfl, rfl, rfl⟩

theorem trans {u : PeerDb κ} (h : SamePeers s t) (h' : SamePeers t u) : SamePeers s u :=
  ⟨h'.personas.trans h.personas, h'.identifiers.trans h.identifiers, h'.routes.trans h.routes⟩

theorem of_eq (h : t.others = s.others) : SamePeers s t := by
  constructor <;> rw [h]

variable (h : SamePeers s t)

include h

theorem resolveByDid (owner did : String) :
    t.others.resolveByDid codes owner did = s.others.resolveByDid codes owner did := by
  unfold PeerTables.resolveByDid PeerTables.didMatch
  rw [h.personas, h.identifiers, h.routes]

theorem resolves {owner did : String} :
    t.others.Resolves codes owner did ↔ s.others.Resolves codes owner did := by
  unfold PeerTables.Resolves
  rw [h.resolveByDid]

theorem base (hs : PeerBase codes s) : PeerBase codes t := by
  constructor
  · rw [h.identifiers]
    exact hs.unique
  · rw [h.identifiers]
    exact hs.trimmed
  · rw [h.routes]
    exact hs.canonical

theorem canonicalize (record : MessageRecord) :
    canonicalizeInboundMessage context.messages t.others record =
      canonicalizeInboundMessage context.messages s.others record := by
  unfold canonicalizeInboundMessage
  have hresolve : ∀ owner did, context.messages.resolveByDid t.others owner did =
      context.messages.resolveByDid s.others owner did := fun owner did => h.resolveByDid owner did
  simp only [hresolve]

end SamePeers

theorem not_resolves_of_canonicalize {e : ImError}
    (h : canonicalizeInboundMessage context.messages s.others record = .error e)
    (hdid : record.directPeerDid = some did) :
    ¬ s.others.Resolves context.toPeerCodes record.ownerIdentityId did := by
  rintro ⟨persona, hresolved⟩
  unfold canonicalizeInboundMessage at h
  have hgroup : record.isGroup = false := by
    by_contra hgroup
    simp [MessageRecord.directPeerDid, hgroup] at hdid
  have hresolve : context.messages.resolveByDid s.others record.ownerIdentityId did =
      .ok (some persona) := hresolved
  rw [if_neg (by simp [hgroup])] at h
  split at h
  · cases h
  · simp [hdid, hresolve, bind, Except.bind] at h

theorem canonicalize_ok {canonical : MessageRecord}
    (h : canonicalizeInboundMessage context.messages s.others record = .ok canonical) :
    ∃ conversation thread metadata, canonical = { record with
      conversationId := conversation
      threadId := thread
      metadata := metadata } := by
  unfold canonicalizeInboundMessage at h
  by_cases hgroup : record.isGroup = true
  · simp only [if_pos hgroup] at h
    by_cases hdid : context.messages.isDid (Text.trim record.groupDid) = true
    · rw [if_pos hdid] at h
      exact ⟨_, _, record.metadata, (Except.ok.inj h).symm⟩
    · rw [if_neg hdid] at h
      cases h
  · simp only [if_neg hgroup] at h
    by_cases hmail : record.isMail = true
    · rw [if_pos hmail] at h
      exact ⟨_, _, _, (Except.ok.inj h).symm⟩
    · rw [if_neg hmail] at h
      simp only [except_bind_ok] at h
      obtain ⟨_, -, _, -, _, -, h⟩ := h
      exact ⟨_, _, _, (Except.ok.inj h).symm⟩

theorem upsertMessageRecord_peers {stored : List String × PeerDb κ}
    (h : upsertMessageRecord context.messages s record = .ok stored) :
    SamePeers s stored.2 ∧ stored.2.backlog = s.backlog ∧
      stored.2.backlogBindings = s.backlogBindings := by
  unfold upsertMessageRecord at h
  simp only [except_bind_ok] at h
  obtain ⟨keys, -, legacy, hlegacy, others, hsettle, h⟩ := h
  cases h
  obtain ⟨directory, -, rfl⟩ := except_map_ok.mp hsettle
  unfold mergeLegacy at hlegacy
  split at hlegacy
  · obtain ⟨merged, -, rfl⟩ := except_map_ok.mp hlegacy
    exact ⟨⟨rfl, rfl, rfl⟩, rfl, rfl⟩
  · cases hlegacy
    exact ⟨⟨rfl, rfl, rfl⟩, rfl, rfl⟩

/-! ## The entries of the backlog -/

def BacklogRow.Waits (row : BacklogRow) : Prop :=
  row.resolutionState = .pending ∧ row.errorCode = .identityUnresolved

instance : DecidablePred BacklogRow.Waits := fun row =>
  inferInstanceAs (Decidable (row.resolutionState = .pending ∧
    row.errorCode = .identityUnresolved))

def BacklogRow.isHeld (row : BacklogRow) (eventId : String) (record : MessageRecord) : Bool :=
  row.isEntry (Text.trim record.ownerIdentityId) (Text.trim eventId) (Text.trim record.msgId)

theorem BacklogRow.isHeld_iff {row : BacklogRow} {eventId : String} :
    row.isHeld eventId record = true ↔ row.ownerIdentityId = Text.trim record.ownerIdentityId ∧
      row.eventId = Text.trim eventId ∧ row.messageId = Text.trim record.msgId := by
  simp [BacklogRow.isHeld, BacklogRow.isEntry, and_assoc]

theorem storeWithThreadBinding_rows {error : ImError}
    (h : storeWithThreadBinding s source record error binding = .ok t) :
    t.others = s.others ∧ ∀ row ∈ t.backlog, row ∈ s.backlog ∨
      row.isHeld source.eventId record = true ∧ row.errorCode = .ofError error ∧
      (row.record = record ∨
        ∃ old ∈ s.backlog, old.isHeld source.eventId record = true ∧ row.record = old.record) := by
  unfold storeWithThreadBinding at h
  replace h := except_then h
  cases h
  refine ⟨rfl, fun row hrow => ?_⟩
  rcases Rows.mem_upsertWhere hrow with rfl | ⟨hrow, -⟩ | ⟨old, hold, hkey, rfl⟩
  · exact .inr ⟨by simp [BacklogRow.isHeld, BacklogRow.isEntry], rfl, .inl rfl⟩
  · exact .inl hrow
  · exact .inr ⟨hkey, rfl, .inr ⟨old, hold, hkey, rfl⟩⟩

structure BacklogInv (codes : PeerCodes) (db : PeerDb κ) : Prop extends PeerBase codes db where
  owners : ∀ row ∈ db.backlog, Text.trim row.ownerIdentityId = row.ownerIdentityId
  unresolved : ∀ row ∈ db.backlog, row.Waits → ∀ did, row.record.directPeerDid = some did →
    ¬ db.others.Resolves codes row.ownerIdentityId did

theorem BacklogInv.of_subset (hs : BacklogInv codes s) (hpeers : SamePeers s t)
    (hrows : ∀ row ∈ t.backlog, row ∈ s.backlog) : BacklogInv codes t where
  toPeerBase := hpeers.base hs.toPeerBase
  owners := fun row hrow => hs.owners row (hrows row hrow)
  unresolved := by
    intro row hrow hwaits did hdid
    rw [hpeers.resolves]
    exact hs.unresolved row (hrows row hrow) hwaits did hdid

theorem Resolves.trim_owner :
    peers.Resolves codes (Text.trim owner) did ↔ peers.Resolves codes owner did := by
  unfold PeerTables.Resolves PeerTables.resolveByDid
  rw [Text.trim_trim]

def Fits (db : PeerDb κ) (eventId : String) (record : MessageRecord) : Prop :=
  ∀ row ∈ db.backlog, row.isHeld eventId record = true →
    row.record.directPeerDid = record.directPeerDid

theorem BacklogInv.hold (hs : BacklogInv codes s) {error : ImError}
    (hfits : BacklogError.ofError error = .identityUnresolved → Fits s source.eventId record)
    (hunresolved : BacklogError.ofError error = .identityUnresolved →
      ∀ did, record.directPeerDid = some did →
        ¬ s.others.Resolves codes record.ownerIdentityId did)
    (h : storeWithThreadBinding s source record error binding = .ok t) : BacklogInv codes t := by
  obtain ⟨hothers, hrows⟩ := storeWithThreadBinding_rows h
  have hpeers : SamePeers s t := .of_eq hothers
  refine ⟨hpeers.base hs.toPeerBase, fun row hrow => ?_, fun row hrow hwaits did hdid => ?_⟩
  · rcases hrows row hrow with hrow | ⟨hheld, -⟩
    · exact hs.owners row hrow
    · rw [(BacklogRow.isHeld_iff.mp hheld).1, Text.trim_trim]
  · rw [hpeers.resolves]
    rcases hrows row hrow with hrow | ⟨hheld, herror, hrecord⟩
    · exact hs.unresolved row hrow hwaits did hdid
    · have hcode := herror.symm.trans hwaits.2
      have hpeer : row.record.directPeerDid = record.directPeerDid := by
        rcases hrecord with hrecord | ⟨old, hold, holdHeld, hrecord⟩
        · rw [hrecord]
        · rw [hrecord]
          exact hfits hcode old hold holdHeld
      rw [(BacklogRow.isHeld_iff.mp hheld).1, Resolves.trim_owner]
      exact hunresolved hcode did (hpeer.symm.trans hdid)

/-! ## Ingesting -/

def IsUnresolved (context : PeerContext κ) (db : PeerDb κ) (record : MessageRecord) : Bool :=
  (canonicalizeInboundMessage context.messages db.others record).toOption.isNone

def Agree (context : PeerContext κ) (db : PeerDb κ) (a b : MessageRecord) : Prop :=
  IsUnresolved context db b = true →
    Text.trim a.ownerIdentityId = Text.trim b.ownerIdentityId →
    Text.trim a.msgId = Text.trim b.msgId → a.directPeerDid = b.directPeerDid

section

variable (h : ingestMessage context eventType progress record = .ok progress')

include h

theorem ingestMessage_ok :
    (∃ canonical stored, upsertMessageRecord context.messages progress.2 canonical = .ok stored ∧
        progress'.2 = stored.2) ∨
      ∃ held error, storeWithThreadBinding progress.2 (ingestSource eventType record) held error
          none = .ok progress'.2 ∧
        held.ownerIdentityId = record.ownerIdentityId ∧ held.msgId = record.msgId ∧
        held.directPeerDid = record.directPeerDid ∧
        (BacklogError.ofError error = .identityUnresolved →
          canonicalizeInboundMessage context.messages progress.2.others record =
            .error error) := by
  unfold ingestMessage at h
  dsimp only at h
  split at h
  · rename_i canonical hcanonical
    obtain ⟨conversation, thread, metadata, rfl⟩ := canonicalize_ok hcanonical
    split at h
    · rename_i stored hstored
      cases h
      exact .inl ⟨_, stored, hstored, rfl⟩
    · rename_i error herror
      split at h
      · rename_i hconflict
        obtain ⟨held, hheld, h⟩ := except_bind_ok.mp h
        cases h
        refine .inr ⟨_, error, hheld, rfl, rfl, rfl, fun hcode => ?_⟩
        cases error <;> simp [isWireConflict, BacklogError.ofError] at hconflict hcode
      · cases h
  · rename_i error herror
    split at h
    · obtain ⟨held, hheld, h⟩ := except_bind_ok.mp h
      cases h
      exact .inr ⟨record, error, hheld, rfl, rfl, rfl, fun _ => herror⟩
    · cases h

theorem ingestMessage_samePeers : SamePeers progress.2 progress'.2 := by
  rcases ingestMessage_ok h with ⟨_, stored, hstored, hdb⟩ | ⟨_, _, hheld, -⟩
  · rw [hdb]
    exact (upsertMessageRecord_peers hstored).1
  · exact .of_eq (storeWithThreadBinding_rows hheld).1

end

theorem isUnresolved_congr (h : SamePeers s t) (record : MessageRecord) :
    IsUnresolved context t record = IsUnresolved context s record := by
  unfold IsUnresolved
  rw [h.canonicalize]

theorem isHeld_inj {row : BacklogRow} {eventId eventId' : String} (ha : row.isHeld eventId a = true)
    (hb : row.isHeld eventId' b = true) :
    Text.trim a.ownerIdentityId = Text.trim b.ownerIdentityId ∧
      Text.trim eventId = Text.trim eventId' ∧ Text.trim a.msgId = Text.trim b.msgId := by
  rw [BacklogRow.isHeld_iff] at ha hb
  exact ⟨ha.1.symm.trans hb.1, ha.2.1.symm.trans hb.2.1, ha.2.2.symm.trans hb.2.2⟩

theorem isHeld_congr {row : BacklogRow} {eventId eventId' : String}
    (howner : Text.trim a.ownerIdentityId = Text.trim b.ownerIdentityId)
    (hevent : Text.trim eventId = Text.trim eventId')
    (hmsg : Text.trim a.msgId = Text.trim b.msgId) :
    row.isHeld eventId a = row.isHeld eventId' b := by
  unfold BacklogRow.isHeld
  rw [howner, hevent, hmsg]

theorem Fits.ingestMessage
    (h : ingestMessage context eventType progress a = .ok progress')
    (hb : Fits progress.2 (ingestSource eventType b).eventId b)
    (hagree : Text.trim a.ownerIdentityId = Text.trim b.ownerIdentityId →
      Text.trim a.msgId = Text.trim b.msgId → a.directPeerDid = b.directPeerDid) :
    Fits progress'.2 (ingestSource eventType b).eventId b := by
  intro row hrow hrowB
  rcases ingestMessage_ok h with ⟨_, stored, hstored, hdb⟩ | ⟨held, error, hheld, howner, hmsg,
    hpeer, -⟩
  · rw [hdb, (upsertMessageRecord_peers hstored).2.1] at hrow
    exact hb row hrow hrowB
  · rcases (storeWithThreadBinding_rows hheld).2 row hrow with hrow | ⟨hrowA, -, hrecord⟩
    · exact hb row hrow hrowB
    · obtain ⟨hkeyOwner, hkeyEvent, hkeyMsg⟩ := isHeld_inj hrowA hrowB
      rcases hrecord with hrecord | ⟨old, hold, holdA, hrecord⟩
      · rw [hrecord, hpeer]
        rw [howner] at hkeyOwner
        rw [hmsg] at hkeyMsg
        exact hagree hkeyOwner hkeyMsg
      · rw [hrecord]
        apply hb old hold
        rwa [isHeld_congr hkeyOwner hkeyEvent hkeyMsg] at holdA

theorem BacklogInv.ingestMessage
    (hs : BacklogInv context.toPeerCodes progress.2)
    (hfits : IsUnresolved context progress.2 record = true →
      Fits progress.2 (ingestSource eventType record).eventId record)
    (h : ingestMessage context eventType progress record = .ok progress') :
    BacklogInv context.toPeerCodes progress'.2 := by
  rcases ingestMessage_ok h with ⟨_, stored, hstored, hdb⟩ | ⟨held, error, hheld, howner, hmsg,
    hpeer, hcanonical⟩
  · rw [hdb]
    obtain ⟨hpeers, hbacklog, -⟩ := upsertMessageRecord_peers hstored
    exact hs.of_subset hpeers fun row hrow => hbacklog ▸ hrow
  · refine hs.hold (fun hcode row hrow hrowHeld => ?_) (fun hcode did hdid => ?_) hheld
    · have hunresolved : IsUnresolved context progress.2 record = true := by
        unfold IsUnresolved
        rw [hcanonical hcode]
        rfl
      have hsame : row.isHeld (ingestSource eventType record).eventId held =
          row.isHeld (ingestSource eventType record).eventId record :=
        isHeld_congr (by rw [howner]) rfl (by rw [hmsg])
      rw [hpeer]
      exact hfits hunresolved row hrow (hsame ▸ hrowHeld)
    · rw [howner]
      exact not_resolves_of_canonicalize (hcanonical hcode) (hpeer.symm.trans hdid)

theorem BacklogInv.ingest {records : List MessageRecord}
    (h : records.foldlM (LocalState.ingestMessage context eventType) progress = .ok progress')
    (hs : BacklogInv context.toPeerCodes progress.2)
    (hfits : ∀ record ∈ records, IsUnresolved context progress.2 record = true →
      Fits progress.2 (ingestSource eventType record).eventId record)
    (hagree : records.Pairwise (Agree context progress.2)) :
    BacklogInv context.toPeerCodes progress'.2 := by
  induction records generalizing progress with
  | nil =>
    cases h
    exact hs
  | cons record rest ih =>
    rw [List.foldlM_cons] at h
    obtain ⟨next, hnext, h⟩ := except_bind_ok.mp h
    have hpeers := ingestMessage_samePeers hnext
    obtain ⟨hfirst, hrest⟩ := List.pairwise_cons.mp hagree
    apply ih h (hs.ingestMessage (hfits record List.mem_cons_self) hnext)
    · intro other hother hunresolved
      rw [isUnresolved_congr hpeers] at hunresolved
      exact Fits.ingestMessage hnext (hfits other (List.mem_cons_of_mem _ hother) hunresolved)
        (hfirst other hother hunresolved)
    · apply hrest.imp
      intro a b hab hunresolved
      rw [isUnresolved_congr hpeers] at hunresolved
      exact hab hunresolved

/-! ## Replaying -/

theorem replayRow_ok {entry : BacklogRow × Option BacklogBinding}
    (h : (replayRow context owner entry).run s = .ok v t) :
    SamePeers s t ∧ ∀ row, row ∈ t.backlog ↔ row ∈ s.backlog ∧
      row.isEntry (Text.trim owner) entry.1.eventId entry.1.messageId = false := by
  simp only [replayRow, bind_ok, query_ok, attempt_ok, execute_ok] at h
  obtain ⟨_, _, ⟨rfl, rfl⟩, db, _, ⟨hreplayed, rfl⟩, rfl⟩ := h
  have hreplay : SamePeers s db ∧ db.backlog = s.backlog := by
    unfold replayMessage at hreplayed
    obtain ⟨record, -, hreplayed⟩ := except_bind_ok.mp hreplayed
    obtain ⟨stored, hstored, hreplayed⟩ := except_bind_ok.mp hreplayed
    obtain ⟨hpeers, hbacklog, -⟩ := upsertMessageRecord_peers hstored
    cases hbinding : entry.2 with
    | none =>
      simp only [hbinding] at hreplayed
      cases hreplayed
      exact ⟨hpeers, hbacklog⟩
    | some binding =>
      simp only [hbinding] at hreplayed
      obtain ⟨peers, hbind, hreplayed⟩ := except_bind_ok.mp hreplayed
      cases hreplayed
      refine ⟨hpeers.trans ?_, hbacklog⟩
      unfold upsertThreadBinding at hbind
      simp only [except_bind_ok] at hbind
      obtain ⟨_, -, _, -, _, -, hbind⟩ := hbind
      cases hbind
      exact ⟨rfl, rfl, rfl⟩
  obtain ⟨hpeers, hbacklog⟩ := hreplay
  refine ⟨hpeers.trans ⟨rfl, rfl, rfl⟩, fun row => ?_⟩
  simp [forgetEntry, hbacklog]

theorem replayRows_ok {entries : List (BacklogRow × Option BacklogBinding)}
    (h : (forEach entries (replayRow context owner)).run s = .ok v t) :
    SamePeers s t ∧ ∀ row, row ∈ t.backlog ↔ row ∈ s.backlog ∧ ∀ entry ∈ entries,
      row.isEntry (Text.trim owner) entry.1.eventId entry.1.messageId = false := by
  induction entries generalizing s with
  | nil =>
    obtain ⟨-, rfl⟩ := pure_ok.mp h
    exact ⟨.refl s, by simp⟩
  | cons entry rest ih =>
    obtain ⟨_, u, hfirst, hrest⟩ := bind_ok.mp h
    obtain ⟨hpeers, hrows⟩ := replayRow_ok hfirst
    obtain ⟨hpeers', hrows'⟩ := ih hrest
    refine ⟨hpeers.trans hpeers', fun row => ?_⟩
    simp [hrows', hrows, and_assoc]

theorem replayForPersona_ok (h : (replayForPersona context owner persona).run s = .ok v t) :
    SamePeers s t ∧ (∀ row ∈ t.backlog, row ∈ s.backlog) ∧
      ∀ row ∈ t.backlog, row.ownerIdentityId = Text.trim owner →
        row.resolutionState = .pending →
        ∀ did ∈ s.others.didsForPersona owner persona, row.peerDid ≠ Text.trim did := by
  simp only [replayForPersona, bind_ok, query_ok] at h
  obtain ⟨entries, _, ⟨rfl, rfl⟩, h⟩ := h
  obtain ⟨hpeers, hrows⟩ := replayRows_ok h
  refine ⟨hpeers, fun row hrow => ((hrows row).mp hrow).1, ?_⟩
  intro row hrow howner hpending did hdid hpeer
  obtain ⟨hrow, hgone⟩ := (hrows row).mp hrow
  have hentry : (row, s.backlogBindings.find?
      (·.isFor row.ownerIdentityId row.eventId row.messageId)) ∈ pendingOf s owner persona := by
    apply List.mem_flatMap.mpr
    refine ⟨did, hdid, List.mem_map.mpr ⟨row, ?_, rfl⟩⟩
    simp [pendingRows, hrow, howner, hpending, hpeer]
  have hkey := hgone _ hentry
  simp [BacklogRow.isEntry, howner] at hkey

/-! ## Projections and transitions -/

theorem PeerProjected.resolution {persona : PeerPersona} {generation : Option String}
    {legacy : Option LegacyPersona}
    (h : PeerProjected codes owner did persona generation legacy s t) {o d : String}
    (hresolution : Resolution codes t.others o d identifier row route)
    (hother : identifier.isOf owner persona.peerPersonaId = false) :
    Resolution codes s.others o d identifier row route := by
  have howner : identifier.ownerIdentityId = Text.trim o := congrArg Prod.fst hresolution.key
  have hapart : ¬ (Text.trim o = owner ∧ identifier.peerPersonaId = persona.peerPersonaId) := by
    rw [← howner, ← IdentifierRow.isOf_iff, hother]
    simp
  have hisRoute := RouteRow.isRouteOf_iff.mp hresolution.isRoute
  refine ⟨((h.mem_iff hother).mp hresolution.memIdentifier).1, hresolution.key, ?_, ?_,
    hresolution.isRoute, hresolution.canonical⟩
  · rw [← h.personas _ _ hapart]
    exact hresolution.persona
  · rcases h.routes route hresolution.memRoute with hroute | ⟨hroute, -⟩
    · rw [hroute] at hisRoute
      exact absurd ⟨hisRoute.1.symm, (Option.some.inj hisRoute.2).symm⟩ hapart
    · exact hroute

theorem mem_didsForPersona {row : IdentifierRow} (hrow : row ∈ peers.identifiers)
    (hdid : row.isDidOf (Text.trim owner) (Text.trim persona) = true) :
    row.value ∈ peers.didsForPersona owner persona := by
  unfold PeerTables.didsForPersona
  apply List.mem_map.mpr
  exact ⟨row, by simp [hrow, hdid], rfl⟩

theorem trim_directPeerDid (h : record.directPeerDid = some did) : Text.trim did = did := by
  simp only [MessageRecord.directPeerDid, Option.ite_none_right_eq_some, Option.some.injEq] at h
  rw [← h.2, Text.trim_trim]

theorem BacklogInv.project (hcodes : context.toPeerCodes.Sound)
    (hs : BacklogInv context.toPeerCodes s) {ownerDid now : String}
    {lookup : HandleLookup} {home : Option String}
    (h : (projectVerifiedHandle context owner ownerDid lookup home now).run s =
      .ok conversation t) : BacklogInv context.toPeerCodes t := by
  obtain ⟨persona, legacy, generation, u, -, hcanonical, -, -, -, hprojected, hreplay⟩ :=
    projectVerifiedHandle_cases hcodes hs.toPeerBase h
  obtain ⟨hpeers, hsubset, hgone⟩ := replayForPersona_ok hreplay
  have hmem : ∀ row ∈ t.backlog, row ∈ s.backlog := fun row hrow =>
    hprojected.backlog ▸ hsubset row hrow
  refine ⟨hpeers.base (hs.toPeerBase.project hcanonical hprojected),
    fun row hrow => hs.owners row (hmem row hrow), ?_⟩
  intro row hrow hwaits did hdid hresolves
  rw [hpeers.resolves] at hresolves
  obtain ⟨identifier, found, route, hresolution⟩ := hresolves.resolution
  by_cases hof : identifier.isOf (Text.trim owner) persona.peerPersonaId = true
  · -- The DID belongs to the Persona, so the message was replayed.
    have hkey := hresolution.key
    simp only [IdentifierRow.key, Prod.mk.injEq] at hkey
    rw [IdentifierRow.isOf_iff] at hof
    have howner : row.ownerIdentityId = Text.trim owner := by
      rw [← hs.owners row (hmem row hrow), ← hkey.1, hof.1]
    have hdids : identifier.value ∈ u.others.didsForPersona owner persona.peerPersonaId := by
      apply mem_didsForPersona hresolution.memIdentifier
      simp [IdentifierRow.isDidOf, hof.1, hof.2, hkey.2.1, hcanonical.trim_id hcodes]
    apply hgone row hrow howner hwaits.1 _ hdids
    rw [hkey.2.2, Text.trim_trim, trim_directPeerDid hdid, BacklogRow.peerDid, hdid]
    rfl
  · have hresolution' := hprojected.resolution hresolution (Bool.eq_false_iff.mpr hof)
    exact hs.unresolved row (hmem row hrow) hwaits did hdid
      (hresolution'.resolves hcodes hs.toPeerBase)

theorem Transitioned.resolves (hcodes : codes.Sound) (hs : PeerBase codes s)
    {expected verified o d : String}
    (h : Transitioned owner conversation persona expected verified s t)
    (hresolves : t.others.Resolves codes o d)
    (hother : ¬ (Text.trim o = owner ∧ Text.trim d = Text.trim verified)) :
    s.others.Resolves codes o d := by
  obtain ⟨identifier, row, route, hresolution⟩ := hresolves.resolution
  obtain ⟨new, hown, -, -, hvalue, -, retired, hbound, now, rfl⟩ := h.identifiers
  have hkey := hresolution.key
  simp only [IdentifierRow.key, Prod.mk.injEq] at hkey
  have hidentifier : ∃ old ∈ s.others.identifiers, old.key = identifier.key ∧
      old.peerPersonaId = identifier.peerPersonaId := by
    rcases (hbound.mem identifier).mp hresolution.memIdentifier with rfl | ⟨hmem, -⟩
    · exact absurd ⟨hkey.1.symm.trans hown, hkey.2.2.symm.trans hvalue⟩ hother
    · rcases Rows.updateWhere_cases hmem with ⟨hold, -⟩ | ⟨old, hold, -, rfl⟩
      · exact ⟨identifier, hold, rfl, rfl⟩
      · exact ⟨old, hold, rfl, rfl⟩
  obtain ⟨old, hold, holdKey, holdPersona⟩ := hidentifier
  have hroute : ∃ before ∈ s.others.routes, before.ownerIdentityId = route.ownerIdentityId ∧
      before.peerPersonaId = route.peerPersonaId ∧
      before.conversationId = route.conversationId := by
    have hmem := hresolution.memRoute
    rw [h.store] at hmem
    rcases Rows.updateWhere_cases hmem with ⟨hold, -⟩ | ⟨before, hbefore, -, rfl⟩
    · exact ⟨route, hold, rfl, rfl, rfl⟩
    · exact ⟨before, hbefore, rfl, rfl, rfl⟩
  obtain ⟨before, hbefore, hbeforeOwner, hbeforePersona, hbeforeConversation⟩ := hroute
  have hpersonas : t.others.personas = s.others.personas := by rw [h.store]
  have hisRoute := RouteRow.isRouteOf_iff.mp hresolution.isRoute
  have hbefore' : Resolution codes s.others o d old row before := by
    refine ⟨hold, holdKey.trans hresolution.key, ?_, hbefore, ?_, ?_⟩
    · rw [holdPersona, ← hpersonas]
      exact hresolution.persona
    · rw [RouteRow.isRouteOf_iff, hbeforeOwner, hbeforePersona, holdPersona]
      exact hisRoute
    · rw [hbeforeConversation]
      exact hresolution.canonical
  exact hbefore'.resolves hcodes hs

theorem BacklogInv.transition (hcodes : codes.Sound) (hs : BacklogInv codes s)
    {expected verified : String}
    (hwaiting : ∀ row ∈ s.backlog, row.Waits → row.ownerIdentityId = Text.trim owner →
      row.record.directPeerDid ≠ some (Text.trim verified))
    (h : Transitioned owner conversation persona expected verified s t) : BacklogInv codes t := by
  have hbacklog : t.backlog = s.backlog := by rw [h.store]
  obtain ⟨old, hold, holdIs⟩ := h.predecessor
  refine ⟨hs.toPeerBase.transition h, by rw [hbacklog]; exact hs.owners, ?_⟩
  rw [hbacklog]
  intro row hrow hwaits did hdid hresolves
  apply hs.unresolved row hrow hwaits did hdid
  apply h.resolves hcodes hs.toPeerBase hresolves
  rintro ⟨ho, hd⟩
  rw [hs.owners row hrow] at ho
  rw [trim_directPeerDid hdid] at hd
  exact hwaiting row hrow hwaits (ho.trans (hs.trim_owner hold holdIs).symm) (hd ▸ hdid)

/-! ## Runs -/

inductive BacklogCall where
  | ingest (records : List MessageRecord) (sourceEventType : String)
  | hold (source : BacklogSource) (record : MessageRecord) (binding : Option SyncThreadBinding)
  | peer (call : PeerCall)

namespace BacklogCall

def after (context : PeerContext κ) (call : BacklogCall) (db : PeerDb κ) : PeerDb κ :=
  match call with
  | ingest records sourceEventType =>
    match ingestRemoteMessages context records sourceEventType db with
    | .ok progress => progress.2
    | .error _ => db
  | hold source record binding =>
    match holdMessage context source record binding db with
    | .ok db' => db'
    | .error _ => db
  | peer call => call.after context db

/--
A message is held under no entry of another peer, and a transition binds no DID that
messages wait for.
-/
def Careful (context : PeerContext κ) (call : BacklogCall) (db : PeerDb κ) : Prop :=
  match call with
  | ingest records sourceEventType =>
    (∀ record ∈ records, IsUnresolved context db record = true →
      Fits db (ingestSource (Text.trim sourceEventType) record).eventId record) ∧
    records.Pairwise (Agree context db)
  | hold source record _ => IsUnresolved context db record = true → Fits db source.eventId record
  | peer (.project _ _ _ _ _) => True
  | peer (.transition owner _ _ verified _) =>
    ∀ row ∈ db.backlog, row.Waits → row.ownerIdentityId = Text.trim owner →
      row.record.directPeerDid ≠ some (Text.trim verified)

end BacklogCall

theorem BacklogInv.peer (hcodes : context.toPeerCodes.Sound)
    (hs : BacklogInv context.toPeerCodes s) {call : PeerCall}
    (hcall : (BacklogCall.peer call).Careful context s) :
    BacklogInv context.toPeerCodes (call.after context s) := by
  unfold PeerCall.after
  cases call with
  | project owner ownerDid lookup home now =>
    cases hrun : (PeerCall.perform context (.project owner ownerDid lookup home now)).run s with
    | ok v t =>
      simp only [PeerCall.perform, bind_ok, pure_ok] at hrun
      obtain ⟨conversation, _, hproject, -, rfl⟩ := hrun
      exact hs.project hcodes hproject
    | error e t =>
      simp only [PeerCall.perform] at hrun
      rcases bind_error.mp hrun with h | ⟨_, _, -, h⟩
      · obtain rfl := projectVerifiedHandle_error h
        exact hs
      · cases h
  | transition owner conversation expected verified now =>
    cases hrun : (PeerCall.perform context
      (.transition owner conversation expected verified now)).run s with
    | ok v t =>
      simp only [PeerCall.perform, bind_ok, pure_ok] at hrun
      obtain ⟨route, _, htransition, -, rfl⟩ := hrun
      obtain ⟨persona, htransitioned⟩ :=
        compareAndSetVerifiedTransition_ok hcodes hs.toPeerBase htransition
      exact hs.transition hcodes hcall htransitioned
    | error e t =>
      simp only [PeerCall.perform] at hrun
      rcases bind_error.mp hrun with h | ⟨_, _, -, h⟩
      · rcases compareAndSetVerifiedTransition_error_cases hcodes hs.toPeerBase h with
          rfl | ⟨_, persona, -, -, htransitioned, -⟩
        · exact hs
        · exact hs.transition hcodes hcall htransitioned
      · cases h

theorem BacklogInv.step (hcodes : context.toPeerCodes.Sound)
    (hs : BacklogInv context.toPeerCodes s) {call : BacklogCall}
    (hcall : call.Careful context s) : BacklogInv context.toPeerCodes (call.after context s) := by
  cases call with
  | ingest records sourceEventType =>
    unfold BacklogCall.after
    dsimp only
    split
    · rename_i progress hingest
      unfold ingestRemoteMessages at hingest
      exact BacklogInv.ingest hingest hs hcall.1 hcall.2
    · exact hs
  | hold source record binding =>
    unfold BacklogCall.after holdMessage
    dsimp only
    cases hcanonical : canonicalizeInboundMessage context.messages s.others record with
    | ok canonical => exact hs
    | error error =>
      dsimp only
      split
      · rename_i db hheld
        refine hs.hold (fun _ => hcall ?_)
          (fun _ did hdid => not_resolves_of_canonicalize hcanonical hdid) hheld
        unfold IsUnresolved
        rw [hcanonical]
        rfl
      · exact hs
  | peer call => exact hs.peer hcodes hcall

theorem PeerDb.Empty.backlogInv (h : s.Empty) : BacklogInv codes s where
  toPeerBase := h.inv.toPeerBase
  owners := by simp [h.backlog]
  unresolved := by simp [h.backlog]

theorem mem_sortedSet {texts : List String} {text : String} :
    text ∈ sortedSet texts ↔ text ∈ texts := by
  unfold sortedSet
  rw [List.mem_dedup, List.mem_insertionSort]

theorem mem_unresolvedDids {dids out : List String} (hdid : Text.trim did = did)
    (hunresolved : ¬ peers.Resolves codes owner did) (hmem : did ∈ dids)
    (h : peers.unresolvedDids codes owner dids = .ok out) : did ∈ out := by
  unfold PeerTables.unresolvedDids at h
  replace h := except_then h
  obtain ⟨checked, hchecked, h⟩ := except_bind_ok.mp h
  cases h
  obtain ⟨entry, hentry, hcheck⟩ := except_mapM_mem hchecked hmem
  obtain ⟨parsed, hparsed, hcheck⟩ := except_bind_ok.mp hcheck
  obtain ⟨resolved, hresolved, hcheck⟩ := except_bind_ok.mp hcheck
  cases hcheck
  obtain ⟨rfl, -⟩ := parseDid_ok hparsed
  rw [Text.trim_trim, hdid] at hresolved hentry
  cases resolved with
  | some persona =>
    rw [← Resolves.trim_owner] at hunresolved
    exact absurd ⟨persona, hresolved⟩ hunresolved
  | none =>
    rw [mem_sortedSet]
    apply List.mem_map.mpr
    exact ⟨(did, true), List.mem_filter.mpr ⟨hentry, rfl⟩, rfl⟩

/--
From an empty store, after any calls that hold no message under the entry of another peer and
bind no DID by a transition that messages wait for: a message that waits has a peer DID that
does not resolve, and the maintenance looks it up.
-/
theorem waiting_messages_unresolved (hcodes : context.toPeerCodes.Sound) (hs : s.Empty)
    {calls : List BacklogCall}
    (hrun : Run (fun db call db' => call.Careful context db ∧ call.after context db = db')
      s calls t) :
    ∀ row ∈ t.backlog, row.Waits → ∀ did, row.record.directPeerDid = some did →
      ¬ t.others.Resolves context.toPeerCodes row.ownerIdentityId did ∧
      ∀ dids out, did ∈ dids →
        t.others.unresolvedDids context.toPeerCodes row.ownerIdentityId dids = .ok out →
        did ∈ out := by
  have ht : BacklogInv context.toPeerCodes t := by
    refine hrun.invariant ?_ hs.backlogInv
    rintro u call _ hu ⟨hcall, rfl⟩
    exact hu.step hcodes hcall
  intro row hrow hwaits did hdid
  have hunresolved := ht.unresolved row hrow hwaits did hdid
  exact ⟨hunresolved, fun dids out hmem h =>
    mem_unresolvedDids (trim_directPeerDid hdid) hunresolved hmem h⟩

/-! ## A message from a new DID -/

namespace Sample

def peerMessage (sender : String) (seq : Int) : MessageRecord where
  msgId := "m"
  ownerIdentityId := "a"
  ownerDid := "did:a"
  wireThreadKind := "direct"
  wireThreadRef := sender
  senderDid := sender
  receiverDid := "did:a"
  contentType := "t"
  content := .malformed "c"
  serverSeq := some seq
  storedAt := "1"

def receive (sender : String) (seq : Int) : BacklogCall :=
  .ingest [peerMessage sender seq] "r"

def afterCalls (calls : List BacklogCall) : PeerDb Unit :=
  calls.foldl (fun db call => call.after peerContext db) emptyPeers

def leftBehind (db : PeerDb Unit) : List (Bool × Option String × Bool) :=
  db.backlog.map fun row => (decide row.Waits, row.record.directPeerDid,
    match db.others.resolveByDid peerCodes row.ownerIdentityId row.peerDid with
    | .ok (some _) => true
    | _ => false)

def newDid : List BacklogCall := [.peer (projectBob "did:1" "1"), receive "did:2" 1]

theorem newDid_run :
    Run (fun db call db' => call.Careful peerContext db ∧ call.after peerContext db = db')
      emptyPeers newDid (afterCalls newDid) := by
  have hempty : (BacklogCall.after peerContext (.peer (projectBob "did:1" "1"))
      emptyPeers).backlog.isEmpty = true := by
    decide +kernel
  refine .cons ⟨trivial, rfl⟩ (.cons ⟨⟨?_, List.pairwise_singleton _ _⟩, rfl⟩ (.nil _))
  intro record _ _ row hrow
  rw [List.isEmpty_iff.mp hempty] at hrow
  cases hrow

/-- The message of a new DID waits, and the DID does not resolve. -/
theorem newDid_unresolved :
    leftBehind (afterCalls newDid) = [(true, some "did:2", false)] ∧
      ∀ row ∈ (afterCalls newDid).backlog, row.Waits → ∀ did,
        row.record.directPeerDid = some did →
        ¬ (afterCalls newDid).others.Resolves peerCodes row.ownerIdentityId did :=
  ⟨by decide +kernel, fun row hrow hwaits did hdid =>
    (waiting_messages_unresolved peerCodes_sound emptyPeers_empty newDid_run row hrow hwaits did
      hdid).1⟩

def stranded : List BacklogCall := newDid ++ [.peer (moveBob "did:1" "did:2")]

def renewed : List BacklogCall :=
  [.peer (projectBob "did:1" "1"), receive "did:1" 1, receive "did:1" 2, receive "did:2" 3]

/-- In both ways a message waits for a DID that resolves, and the maintenance skips it. -/
theorem stranded_resolves :
    leftBehind (afterCalls stranded) = [(true, some "did:2", true)] ∧
      ((afterCalls stranded).others.unresolvedDids peerCodes "a" ["did:2"]).toOption = some [] ∧
      leftBehind (afterCalls renewed) = [(true, some "did:1", true)] ∧
      ((afterCalls renewed).others.unresolvedDids peerCodes "a" ["did:1"]).toOption =
        some [] := by
  decide +kernel

end Sample
end LocalState
end Awiki
