import Awiki.PeerTables

/-!
# Projecting a verified Handle

A verified Handle is projected in one transaction: the Persona and its generation, its
Handle and DID, the route, the registry and an alias of the DID's own conversation, and
then the messages that waited for the DID.  A Persona that was once derived from the home
Directory is first moved to the Persona that its own authority gives; every DID of the old
Persona has to lead to the verified one by proven transitions.
-/

namespace Awiki
namespace LocalState

open Tx

variable {κ : Type}

/-! ## Other modules -/

structure PersonaMove where
  owner : String
  oldPersona : String
  newPersona : String
  oldConversation : String
  newConversation : String

/--
The functions of other modules that a projection uses.  Their result type says which tables
they write: a stored message reaches the directory, never Personas, identifiers or routes.
-/
structure PeerContext (κ : Type) extends PeerCodes where
  /-- `peer_profiles::upsert_from_verified_lookup`. -/
  upsertProfile : κ → String → PeerPersona → Json → Except ImError κ
  /-- Profiles, group members, read states and summaries of a repair. -/
  moveOthers : κ → List MessageRow → PersonaMove → Except ImError κ
  derivedConversation : MessageRecord → String
  /-- The memo of merged legacy conversations. -/
  mergedConversation : κ → String → String → Option String
  legacyConversations : PeerTables κ → List MessageRow → String → String → MessageRecord →
    Except ImError (List String × Directory κ)
  settle : PeerTables κ → MessageRecord → List String → Except ImError (Directory κ)
  /-- The read states that a new thread binding brings up to date. -/
  settleReadState : PeerTables κ → SyncThreadBinding → Except ImError κ
  nowText : String

/-- `cached_peer_scope_conversation_id_for_legacy_direct`. -/
def peerScopeConversation (context : PeerContext κ) (peers : PeerTables κ)
    (owner conversation : String) : Option String :=
  let resolve (kind : String) := peers.directory.resolveAlias owner kind conversation
  (resolve "verified_foreign_persona").or
    (if Text.startsWith (Text.trim conversation) "dm:did:wba:" then
      ((resolve "legacy_direct_did").or (resolve "verified_did")).or
        (context.mergedConversation peers.directory.rest owner conversation)
    else none)

/-- The query of `can_confirm_target`: both DIDs belong to the Persona of the route, which the
registry has as an active conversation. -/
def PeerTables.succeeds (peers : PeerTables κ) (owner conversation oldDid newDid : String)
    (former : Bool) : Bool :=
  peers.routes.any fun route => route.isRoute owner conversation &&
    route.peerPersonaId.any fun persona =>
      let isVerified (row : IdentifierRow) (did : String) : Bool :=
        row.isIdentifier owner .did did && row.peerPersonaId == persona &&
          ["handle_authority", "verified_did_transition"].contains row.source
      (peers.directory.registry.any fun row => row.isConversation owner conversation &&
        row.peerPersonaId == some persona && row.threadKind == "direct" &&
        row.resolution == .resolved && row.lifecycle == .active) &&
      (peers.identifiers.any fun row => isVerified row oldDid && !row.isCurrent) &&
      peers.identifiers.any fun row => isVerified row newDid &&
        (former || route.currentDid == newDid && row.isCurrent)

def isDirectBindingCanonicalUpgrade (current next : SyncThreadBinding) : Bool :=
  current.threadKind == "direct" && next.threadKind == "direct" &&
    Text.startsWith current.conversationId "dm:did:" &&
    Text.startsWith next.conversationId "dm:peer-scope:v1:"

/-- The rows of `sync_thread_bindings` after `upsert_sync_thread_binding`. -/
def bindThread (bindings : List SyncThreadBinding) (binding : SyncThreadBinding) :
    Except ImError (List SyncThreadBinding) :=
  let isKey (row : SyncThreadBinding) : Bool :=
    row.ownerIdentityId == binding.ownerIdentityId &&
      row.remoteThreadKey == binding.remoteThreadKey
  let isTarget (row : SyncThreadBinding) : Bool :=
    row.ownerIdentityId == binding.ownerIdentityId &&
      row.conversationId == binding.conversationId
  match bindings.find? isKey with
  | some current =>
    if (current.threadKind, current.conversationId) ≠
        (binding.threadKind, binding.conversationId) ∧
        !isDirectBindingCanonicalUpgrade current binding then
      .error (syncError "SYNC_THREAD_BINDING_CONFLICT"
        "remote thread key cannot be rebound to another canonical conversation")
    else if bindings.any fun row => isTarget row && !isKey row then
      .error (.localStateUnavailable "UNIQUE constraint failed: sync_thread_bindings")
    else
      .ok (Rows.updateWhere isKey (fun row => { row with
        conversationId := binding.conversationId
        updatedAt := binding.updatedAt }) bindings)
  | none =>
    match bindings.find? isTarget with
    | some previous =>
      if previous.threadKind ≠ "direct" ∨ binding.threadKind ≠ "direct" then
        .error (syncError "SYNC_THREAD_BINDING_CONFLICT"
          "canonical conversation cannot be rebound to another remote thread")
      else
        .ok (Rows.updateWhere (fun row => isTarget row &&
            row.remoteThreadKey == previous.remoteThreadKey && row.threadKind == "direct")
          (fun row => { row with
            remoteThreadKey := binding.remoteThreadKey
            updatedAt := binding.updatedAt }) bindings)
    | none => .ok (bindings ++ [binding])

/-- The checks of `upsert_sync_thread_binding`. -/
def checkThreadBinding (binding : SyncThreadBinding) : Except ImError Unit := do
  validateRequired "owner_identity_id" binding.ownerIdentityId
  validateRequired "remote_thread_key" binding.remoteThreadKey
  validateRequired "conversation_id" binding.conversationId
  refuse (! ["direct", "group"].contains binding.threadKind)
    (syncError "SYNC_INVALID_PAGE" "sync thread binding kind must be direct or group")

/-- `upsert_sync_thread_binding`. -/
def upsertThreadBinding (context : PeerContext κ) (peers : PeerTables κ)
    (binding : SyncThreadBinding) : Except ImError (PeerTables κ) := do
  checkThreadBinding binding
  let rows ← bindThread peers.directory.threadBindings binding
  let peers := { peers with directory := { peers.directory with threadBindings := rows } }
  let rest ← context.settleReadState peers binding
  .ok { peers with directory := { peers.directory with rest := rest } }

def PeerContext.messages (context : PeerContext κ) : MessageContext (PeerTables κ) where
  isDid := fun did => (parseDid did).toOption.isSome
  resolveByDid := PeerTables.resolveByDid context.toPeerCodes
  peerScopeConversation := peerScopeConversation context
  derivedConversation := context.derivedConversation
  succeeds := PeerTables.succeeds
  legacyConversations := fun peers messages owner conversation record =>
    (context.legacyConversations peers messages owner conversation record).map fun merged =>
      (merged.1, { peers with directory := merged.2 })
  settle := fun peers record touched =>
    (context.settle peers record touched).map fun directory =>
      { peers with directory := directory }
  nowText := context.nowText

/-! ## The repair of a foreign Persona -/

structure LegacyPersona where
  personaId : String
  conversationId : String
  deriving DecidableEq

def getSuccessor (peers : PeerTables κ) (owner did : String) :
    Except ImError (Option String) := do
  let owner ← (nonEmpty owner).elim
    (.error (invalidInput "owner_identity_id" "owner_identity_id is required")) .ok
  let did ← parseDid did
  .ok ((peers.edges.find? fun edge =>
    edge.ownerIdentityId == owner && edge.predecessorDid == did).map (·.successorDid))

/-- Proven transitions lead from a DID to the verified one; `fuel` bounds the visited DIDs. -/
def provesContinuity (peers : PeerTables κ) (owner target : String) (fuel : Nat)
    (visited : List String) (current : String) : Except ImError Unit :=
  if current = target then .ok ()
  else
    match fuel with
    | 0 => .error (.identityBindingConflict
        "foreign Handle cache continuity chain is cyclic or too long")
    | fuel + 1 =>
      if visited.contains current then
        .error (.identityBindingConflict
          "foreign Handle cache continuity chain is cyclic or too long")
      else do
        let successor ← getSuccessor peers owner current
        let next ← successor.elim
          (.error (.identityBindingConflict
            "foreign Handle cache has no proof-verified DID continuity")) .ok
        provesContinuity peers owner target fuel (current :: visited) next

def checkLegacyIdentifier (peers : PeerTables κ) (owner target fullHandle : String)
    (row : IdentifierRow) : Except ImError Unit :=
  let isVerified := row.source == "handle_authority" ||
    row.kind == .did && row.source == "verified_did_transition"
  if !isVerified || row.kind == .handle && row.value != fullHandle then
    .error (.identityBindingConflict "foreign Handle cache contains an unrelated identifier")
  else
    match row.kind with
    | .did => provesContinuity peers owner target 64 [] row.value
    | .handle => .ok ()

/-- The checks of `prepare` on the Persona that the Handle is bound to now. -/
def checkLegacyPersona (codes : PeerCodes) (peers : PeerTables κ) (owner : String)
    (lookup : HandleLookup) (next : PeerPersona) (oldId : String) :
    Except ImError LegacyPersona := do
  let old ← (peers.personas.find? (·.isPersona owner oldId)).elim
    (.error (.localStateUnavailable "Query returned no rows")) .ok
  let persona ← PeerPersona.fromVerifiedHandle codes old.authorityNamespace
    old.authoritySubjectId old.fullHandle (some "active")
  refuse (persona.peerPersonaId != oldId ||
      old.authorityNamespace != next.authorityNamespace ||
      old.fullHandle != next.fullHandle || old.authoritySubjectId == next.fullHandle ||
      old.source != "handle_authority")
    (.identityBindingConflict
      "foreign Handle cache does not match the known Directory projection")
  let resolved ← peers.resolveByHandle codes owner next.fullHandle
  let resolved ← resolved.elim
    (.error (.identityBindingConflict
      "foreign Handle cache has no unambiguous verified route")) .ok
  refuse (resolved.peerPersonaId != oldId ||
      resolved.conversationId != persona.directConversationId codes)
    (.identityBindingConflict "foreign Handle cache has an inconsistent route")
  refuse (peers.personas.any (·.isPersona owner next.peerPersonaId))
    (.identityBindingConflict
      "foreign Handle repair has an independently established target Persona")
  let _generation ← peers.validateProjectionGeneration owner oldId lookup.did
    lookup.bindingGeneration
  (peers.identifiers.filter (·.isOf owner oldId)).forM
    (checkLegacyIdentifier peers owner lookup.did next.fullHandle)
  .ok { personaId := oldId, conversationId := resolved.conversationId }

/-- `foreign_persona_migration::prepare`. -/
def prepareRepair (codes : PeerCodes) (peers : PeerTables κ) (owner : String)
    (lookup : HandleLookup) (home : Option String) : Except ImError (Option LegacyPersona) := do
  let next ← lookup.peerPersona codes
  match home with
  | none => .ok none
  | some home => do
      let home ← normalizeAuthorityNamespace codes home
      if next.authorityNamespace = home ∨ next.authoritySubjectId ≠ next.fullHandle then
        .ok none
      else
        let existing := (peers.identifiers.find?
          (·.isIdentifier owner .handle next.fullHandle)).map (·.peerPersonaId)
        match existing.filter (· != next.peerPersonaId) with
        | none => .ok none
        | some oldId => do
            let legacy ← checkLegacyPersona codes peers owner lookup next oldId
            .ok (some legacy)

def moveIdentifiers (owner old new : String) (rows : List IdentifierRow) :
    List IdentifierRow :=
  Rows.updateWhere (·.isOf owner old) (fun row => { row with peerPersonaId := new }) rows

def flattenAliases (owner old new : String) (rows : List AliasRow) : List AliasRow :=
  Rows.updateWhere (fun row => row.ownerIdentityId == owner && row.canonicalConversationId == old)
    (fun row => { row with canonicalConversationId := new }) rows

def moveMessages (owner old new : String) (rows : List MessageRow) : List MessageRow :=
  Rows.updateWhere (fun row => row.ownerIdentityId == owner && row.threadId == old)
    (fun row => { row with threadId := new })
    (Rows.updateWhere (fun row => row.ownerIdentityId == owner && row.conversationId == old)
      (fun row => { row with conversationId := new }) rows)

def aliasRepaired (owner old new verifiedAt : String) : PeerM κ Unit := do
  onDirectory fun directory =>
    { directory with aliases := flattenAliases owner old new directory.aliases }
  insertAlias
    { ownerIdentityId := owner
      aliasKind := "verified_foreign_persona"
      aliasConversationId := old
      canonicalConversationId := new } "public_wns_directory_repair" verifiedAt

def moveConversation (context : PeerContext κ) (move : PersonaMove) : PeerM κ Unit := do
  let isBound (conversation : String) (row : SyncThreadBinding) : Bool :=
    row.ownerIdentityId == move.owner && row.conversationId == conversation
  let taken ← query fun db =>
    db.others.directory.threadBindings.any (isBound move.oldConversation) &&
      db.others.directory.threadBindings.any (isBound move.newConversation)
  refuseIf taken (.localStateUnavailable "UNIQUE constraint failed: sync_thread_bindings")
  execute fun db =>
    { db with
      messages := moveMessages move.owner move.oldConversation move.newConversation db.messages }
  onDirectory fun directory =>
    { directory with
      threadBindings := Rows.updateWhere (isBound move.oldConversation)
        (fun row => { row with conversationId := move.newConversation })
        directory.threadBindings }
  markMerged move.owner move.oldConversation move.newConversation
  onPeers fun peers =>
    { peers with
      routes := Rows.deleteWhere (·.isRoute move.owner move.oldConversation) peers.routes }
  let rest ← query fun db =>
    context.moveOthers db.others.directory.rest db.messages move
  let rest ← attempt rest
  onDirectory fun directory => { directory with rest := rest }

def openRoute (codes : PeerCodes) (route : RouteRow) (owner ownerDid now : String) :
    PeerM κ Unit := do
  upsertRoute codes route
  ensureDirect owner ownerDid route.conversationId now

/-- `foreign_persona_migration::migrate`. -/
def migrateRepair (context : PeerContext κ) (owner ownerDid : String) (lookup : HandleLookup)
    (persona : PeerPersona) (old : LegacyPersona) (verifiedAt : String) : PeerM κ Unit := do
  let nextId := persona.directConversationId context.toPeerCodes
  let route ← attempt (RouteRow.fromVerifiedPersona context.toPeerCodes owner persona lookup.did)
  openRoute context.toPeerCodes route owner ownerDid verifiedAt
  onPeers fun peers =>
    { peers with
      identifiers := moveIdentifiers owner old.personaId persona.peerPersonaId
        peers.identifiers
      contacts := Rows.updateWhere
        (fun row => row.ownerIdentityId == owner && row.peerPersonaId == old.personaId)
        (fun row => { row with peerPersonaId := persona.peerPersonaId }) peers.contacts }
  aliasRepaired owner old.conversationId nextId verifiedAt
  moveConversation context
    { owner := owner
      oldPersona := old.personaId
      newPersona := persona.peerPersonaId
      oldConversation := old.conversationId
      newConversation := nextId }

/-! ## Replaying the backlog -/

/-- The column `peer_did`. -/
def BacklogRow.peerDid (row : BacklogRow) : String :=
  row.record.directPeerDid.getD ""

/-- `ORDER BY LENGTH(event_seq), event_seq, event_id, message_id`. -/
def BacklogRow.replayOrder (a b : BacklogRow) : Ordering :=
  (compare a.eventSeq.length b.eventSeq.length).then
    ((compare a.eventSeq b.eventSeq).then
      ((compare a.eventId b.eventId).then (compare a.messageId b.messageId)))

def pendingRows (db : PeerDb κ) (owner did : String) : List BacklogRow :=
  (db.backlog.filter fun row => row.ownerIdentityId == Text.trim owner &&
    row.resolutionState == .pending && row.peerDid == Text.trim did).insertionSort
    fun a b => a.replayOrder b ≠ .gt

def pendingOf (db : PeerDb κ) (owner persona : String) :
    List (BacklogRow × Option BacklogBinding) :=
  (db.others.didsForPersona owner persona).flatMap fun did =>
    (pendingRows db owner did).map fun row =>
      (row, db.backlogBindings.find? (·.isFor row.ownerIdentityId row.eventId row.messageId))

def replayMessage (context : PeerContext κ) (owner : String) (row : BacklogRow)
    (binding : Option BacklogBinding) (db : PeerDb κ) : Except ImError (PeerDb κ) := do
  let record ← canonicalizeInboundMessage context.messages db.others row.record
  let stored ← upsertMessageRecord context.messages db record
  match binding with
  | none => .ok stored.2
  | some binding => do
      let peers ← upsertThreadBinding context stored.2.others
        { ownerIdentityId := Text.trim owner
          remoteThreadKey := binding.remoteThreadKey
          threadKind := binding.threadKind
          conversationId := record.conversationId
          updatedAt := binding.updatedAt }
      .ok { stored.2 with others := peers }

/-- `DELETE` of a backlog row and of the binding saved with it. -/
def forgetEntry (owner : String) (row : BacklogRow) (db : PeerDb κ) : PeerDb κ :=
  { db with
    backlogBindings := Rows.deleteWhere (·.isFor (Text.trim owner) row.eventId row.messageId)
      db.backlogBindings
    backlog := Rows.deleteWhere (·.isEntry (Text.trim owner) row.eventId row.messageId)
      db.backlog }

def replayRow (context : PeerContext κ) (owner : String)
    (entry : BacklogRow × Option BacklogBinding) : PeerM κ Unit := do
  let replayed ← query (replayMessage context owner entry.1 entry.2)
  let db ← attempt replayed
  execute fun _ => forgetEntry owner entry.1 db

/-- `replay_for_persona`, without the count of rows that nobody uses here. -/
def replayForPersona (context : PeerContext κ) (owner persona : String) : PeerM κ Unit := do
  let rows ← query fun db => pendingOf db owner persona
  forEach rows (replayRow context owner)

/-! ## The projection -/

def bindPersona (owner : String) (persona : PeerPersona) (did now : String) : PeerM κ Unit := do
  bindIdentifier (Text.trim owner) persona.peerPersonaId .handle persona.fullHandle
    "handle_authority" now now
  onPeers fun peers =>
    { peers with
      identifiers := Rows.updateWhere
        (fun row => row.isDidOf (Text.trim owner) persona.peerPersonaId && row.value != did)
        (fun row => { row with isCurrent := false }) peers.identifiers }
  bindIdentifier (Text.trim owner) persona.peerPersonaId .did did "handle_authority" now now

def isContactOf (identifiers : List IdentifierRow) (owner : String) (persona : PeerPersona)
    (row : ContactRow) : Bool :=
  row.ownerIdentityId == owner &&
    (identifiers.any (fun identifier => identifier.isDidOf owner persona.peerPersonaId &&
      identifier.value == row.did) ||
    Text.toAsciiLowercase (Text.sqlTrim row.handle) == persona.fullHandle)

def bindContacts (owner : String) (persona : PeerPersona) : PeerM κ Unit := do
  let owner := Text.trim owner
  let conflicting ← query fun db => db.others.contacts.any fun row =>
    Text.sqlTrim row.peerPersonaId != "" && row.peerPersonaId != persona.peerPersonaId &&
      isContactOf db.others.identifiers owner persona row
  refuseIf conflicting (.identityBindingConflict
    "contact projection is already bound to another Persona")
  onPeers fun peers =>
    { peers with
      contacts := Rows.updateWhere (isContactOf peers.identifiers owner persona)
        (fun row => { row with peerPersonaId := persona.peerPersonaId }) peers.contacts }

def openDirect (context : PeerContext κ) (owner ownerDid : String) (persona : PeerPersona)
    (did now : String) : PeerM κ String := do
  let route ← attempt (RouteRow.fromVerifiedPersona context.toPeerCodes owner persona did)
  openRoute context.toPeerCodes route (Text.trim owner) (Text.trim ownerDid) now
  insertAlias
    { ownerIdentityId := Text.trim owner
      aliasKind := "verified_did"
      aliasConversationId := directConversationId did
      canonicalConversationId := route.conversationId } "handle_authority" now
  return route.conversationId

def projectProfile (context : PeerContext κ) (owner : String) (persona : PeerPersona)
    (profile : Option Json) : PeerM κ Unit :=
  match profile with
  | none => pure ()
  | some profile => do
      let rest ← query fun db =>
        context.upsertProfile db.others.directory.rest owner persona profile
      let rest ← attempt rest
      onDirectory fun directory => { directory with rest := rest }

def repairPersona (context : PeerContext κ) (owner ownerDid : String) (lookup : HandleLookup)
    (persona : PeerPersona) (legacy : Option LegacyPersona) (now : String) : PeerM κ Unit :=
  match legacy with
  | none => pure ()
  | some old => migrateRepair context owner ownerDid lookup persona old now

def projectPersona (context : PeerContext κ) (owner ownerDid : String) (lookup : HandleLookup)
    (home : Option String) (persona : PeerPersona) (now : String) : PeerM κ String := do
  let prepared ← query fun db =>
    prepareRepair context.toPeerCodes db.others owner lookup home
  let legacy ← attempt prepared
  let checked ← query fun db => db.others.validateProjectionGeneration owner
    persona.peerPersonaId lookup.did lookup.bindingGeneration
  let generation ← attempt checked
  upsertPersona owner persona generation now
  repairPersona context owner ownerDid lookup persona legacy now
  bindPersona owner persona lookup.did now
  projectProfile context owner persona lookup.profile
  bindContacts owner persona
  openDirect context owner ownerDid persona lookup.did now

/-- `project_verified_handle_in_domain`. -/
def projectVerifiedHandle (context : PeerContext κ) (owner ownerDid : String)
    (lookup : HandleLookup) (home : Option String) (now : String) : PeerM κ String := do
  let persona ← attempt (lookup.peerPersona context.toPeerCodes)
  immediate do
    let conversation ← projectPersona context owner ownerDid lookup home persona now
    replayForPersona context owner persona.peerPersonaId
    return .commit conversation

end LocalState
end Awiki
