import Awiki.MessageTables
import Awiki.StatementLogs

/-!
# The tables of verified peers

A peer is known under a Handle that its authority has verified.  The Persona of a Handle
is the digest of authority, subject and Handle, so it stays the same when the peer changes
its DID.  Five tables hold what follows from a verified Handle: the Persona with its
binding generation, the DIDs and Handles bound to it, the route of its Direct
conversation, the registry of conversations and the aliases of conversations.

The tables that these functions never read are one component `κ`.  SHA-256 and the IDNA
form of a domain are parameters.
-/

namespace Awiki
namespace Text

def contains (s : String) (c : Char) : Bool :=
  s.toList.contains c

/-- `str::split_once` for a character. -/
def splitOnce (c : Char) (s : String) : Option (String × String) :=
  match s.toList.dropWhile (· != c) with
  | [] => none
  | _ :: rest => some (String.ofList (s.toList.takeWhile (· != c)), String.ofList rest)

end Text

namespace LocalState

open Tx

/-! ## Personas -/

structure PeerCodes where
  sha256Hex : String → String
  /-- `idna::domain_to_ascii_strict`. -/
  domainToAscii : String → Option String

structure PeerPersona where
  peerPersonaId : String
  authorityNamespace : String
  authoritySubjectId : String
  fullHandle : String
  deriving DecidableEq

/-- `HandleLookupResult`; the profile is passed on as it is. -/
structure HandleLookup where
  handle : String
  did : String
  userId : String
  domain : Option String
  status : Option String
  bindingGeneration : Option String
  profile : Option Json

/-- `Did::parse`. -/
def parseDid (text : String) : Except ImError String :=
  if Text.isBlank text then .error (invalidInput "did" "did must not be empty")
  else if !Text.startsWith (Text.trim text) "did:" then
    .error (invalidInput "did" "DID must start with did:")
  else .ok (Text.trim text)

-- A domain with `://` in it also has a `/`.
def normalizeAuthorityNamespace (codes : PeerCodes) (value : String) : Except ImError String :=
  let trimmed := Text.trimEndMatches '.' (Text.trim value)
  if trimmed = "" || Text.contains trimmed '/' || Text.contains trimmed '@' ||
      Text.contains trimmed ':' then
    .error (.identityUnresolved "authoritative Handle domain is missing or is not a bare host")
  else
    match codes.domainToAscii trimmed with
    | none =>
      .error (.identityUnresolved "authoritative Handle domain is not a valid IDNA host")
    | some ascii =>
      let normalized := Text.toAsciiLowercase ascii
      if (normalized.toList.splitOn '.').any List.isEmpty then
        .error (.identityUnresolved
          "authoritative Handle domain is empty after normalization")
      else .ok normalized

def normalizeFullHandle (codes : PeerCodes) (value : String) : Except ImError String :=
  let value := Text.trimEndMatches '.' (Text.trimStartMatches '@' (Text.trim value))
  if value = "" || Text.contains value '/' || Text.contains value '@' then
    .error (.identityUnresolved "verified full Handle is missing or malformed")
  else
    match codes.domainToAscii value with
    | none => .error (.identityUnresolved "verified full Handle is not valid IDNA")
    | some ascii => .ok (Text.toAsciiLowercase ascii)

def validateHandleAuthority (fullHandle authorityNamespace : String) : Except ImError Unit :=
  match Text.splitOnce '.' fullHandle with
  | none => .error (.identityUnresolved "verified full Handle has no authority domain")
  | some (subject, domain) =>
    if subject = "" || domain != authorityNamespace then
      .error (.identityBindingConflict
        "verified Handle domain does not match its authority namespace")
    else .ok ()

def validateAvailableStatus (status : Option String) : Except ImError Unit :=
  if Text.toAsciiLowercase (Text.trim (status.getD "")) ∈ ["active", "bound", "verified"] then
    .ok ()
  else
    .error (.identityUnresolved "Handle authority did not return an available binding status")

def personaId (codes : PeerCodes) (authority subject handle : String) : String :=
  "persona:v1:" ++ codes.sha256Hex ("peer-persona:v1\nauthority:" ++ authority ++
    "\nsubject:" ++ subject ++ "\nhandle:" ++ handle)

/-- `direct_conversation_id_for_peer_scope`. -/
def peerScopeConversationId (codes : PeerCodes) (userId fullHandle : String) : String :=
  "dm:peer-scope:v1:" ++ codes.sha256Hex ("user:" ++ userId ++ "\nhandle:" ++ fullHandle)

/-- `direct_conversation_id` of a DID. -/
def directConversationId (did : String) : String :=
  if Text.isBlank did then "dm:unknown" else "dm:" ++ Text.trim did

namespace PeerPersona

def fromVerifiedHandle (codes : PeerCodes) (authorityDomain authoritySubjectId fullHandle : String)
    (status : Option String) : Except ImError PeerPersona := do
  let authority ← normalizeAuthorityNamespace codes authorityDomain
  let subject ← (nonEmpty authoritySubjectId).elim
    (.error (.identityUnresolved "authority_subject_id is required for a canonical Persona")) .ok
  refuse (Text.startsWith (Text.toAsciiLowercase subject) "did:") (.identityUnresolved
    "Handle authority subject must not fall back to a credential DID")
  let handle ← normalizeFullHandle codes fullHandle
  validateHandleAuthority handle authority
  validateAvailableStatus status
  .ok { peerPersonaId := personaId codes authority subject handle
        authorityNamespace := authority
        authoritySubjectId := subject
        fullHandle := handle }

def directConversationId (codes : PeerCodes) (persona : PeerPersona) : String :=
  peerScopeConversationId codes persona.authoritySubjectId persona.fullHandle

end PeerPersona

def HandleLookup.peerPersona (codes : PeerCodes) (lookup : HandleLookup) :
    Except ImError PeerPersona :=
  PeerPersona.fromVerifiedHandle codes (lookup.domain.getD "") lookup.userId lookup.handle
    lookup.status

/-! ## Rows -/

/-- A row of `peer_personas`. -/
structure PersonaRow where
  ownerIdentityId : String
  peerPersonaId : String
  authorityNamespace : String
  authoritySubjectId : String
  fullHandle : String
  bindingGeneration : Option String
  source : String
  deriving DecidableEq

def PersonaRow.isPersona (row : PersonaRow) (owner persona : String) : Bool :=
  row.ownerIdentityId == owner && row.peerPersonaId == persona

inductive IdentifierKind where
  | did
  | handle
  deriving DecidableEq

def IdentifierKind.asStr : IdentifierKind → String
  | .did => "did"
  | .handle => "handle"

/-- A row of `peer_identifiers`. -/
structure IdentifierRow where
  ownerIdentityId : String
  peerPersonaId : String
  kind : IdentifierKind
  value : String
  isCurrent : Bool
  source : String
  lastSeenAt : String
  deriving DecidableEq

namespace IdentifierRow

def isIdentifier (row : IdentifierRow) (owner : String) (kind : IdentifierKind)
    (value : String) : Bool :=
  row.ownerIdentityId == owner && row.kind == kind && row.value == value

def isOf (row : IdentifierRow) (owner persona : String) : Bool :=
  row.ownerIdentityId == owner && row.peerPersonaId == persona

def isDidOf (row : IdentifierRow) (owner persona : String) : Bool :=
  row.isOf owner persona && row.kind == .did

def isCurrentDidOf (row : IdentifierRow) (owner persona : String) : Bool :=
  row.isDidOf owner persona && row.isCurrent

/-- `ORDER BY is_current DESC, last_seen_at DESC, identifier_value`. -/
def didOrder (a b : IdentifierRow) : Ordering :=
  (compare b.isCurrent a.isCurrent).then
    ((compare b.lastSeenAt a.lastSeenAt).then (compare a.value b.value))

end IdentifierRow

/-- A row of `direct_peer_routes`. -/
structure RouteRow where
  ownerIdentityId : String
  conversationId : String
  peerPersonaId : Option String
  authorityNamespace : Option String
  peerUserId : String
  fullHandle : String
  currentDid : String
  deriving DecidableEq

def RouteRow.isRoute (row : RouteRow) (owner conversation : String) : Bool :=
  row.ownerIdentityId == owner && row.conversationId == conversation

def RouteRow.isRouteOf (row : RouteRow) (owner persona : String) : Bool :=
  row.ownerIdentityId == owner && row.peerPersonaId == some persona

inductive Lifecycle where
  | active
  | archived
  | merged
  deriving DecidableEq

inductive RegistryResolution where
  | resolved
  | legacyUnresolved
  | blockedConflict
  deriving DecidableEq

/-- A row of `conversation_registry`. -/
structure RegistryRow where
  ownerIdentityId : String
  conversationId : String
  threadKind : String
  peerPersonaId : Option String
  lifecycle : Lifecycle
  resolution : RegistryResolution
  deriving DecidableEq

namespace RegistryRow

def isConversation (row : RegistryRow) (owner conversation : String) : Bool :=
  row.ownerIdentityId == owner && row.conversationId == conversation

def isActiveDirect (row : RegistryRow) : Bool :=
  row.threadKind == "direct" && row.lifecycle == .active && row.resolution == .resolved

end RegistryRow

/-- A row of `conversation_aliases`. -/
structure AliasRow where
  ownerIdentityId : String
  aliasKind : String
  aliasConversationId : String
  canonicalConversationId : String
  deriving DecidableEq

def AliasRow.isAlias (row : AliasRow) (owner kind conversation : String) : Bool :=
  row.ownerIdentityId == owner && row.aliasKind == kind &&
    row.aliasConversationId == conversation

/-- A row of `contacts`, NULL as the empty text. -/
structure ContactRow where
  ownerIdentityId : String
  did : String
  handle : String
  peerPersonaId : String
  deriving DecidableEq

/-- A row of `did_transition_edges`. -/
structure TransitionEdge where
  ownerIdentityId : String
  predecessorDid : String
  successorDid : String
  deriving DecidableEq

structure Directory (κ : Type) where
  registry : List RegistryRow := []
  aliases : List AliasRow := []
  threadBindings : List SyncThreadBinding := []
  rest : κ

structure PeerTables (κ : Type) where
  personas : List PersonaRow := []
  identifiers : List IdentifierRow := []
  routes : List RouteRow := []
  contacts : List ContactRow := []
  edges : List TransitionEdge := []
  directory : Directory κ

abbrev PeerDb (κ : Type) : Type := MessageTables (PeerTables κ)

abbrev PeerM (κ α : Type) : Type := Tx ImError (PeerDb κ) α

variable {κ : Type}

def onPeers (f : PeerTables κ → PeerTables κ) : PeerM κ Unit :=
  execute fun db => { db with others := f db.others }

def onDirectory (f : Directory κ → Directory κ) : PeerM κ Unit :=
  onPeers fun peers => { peers with directory := f peers.directory }

def requireColumns (columns : List (String × String)) : Except ImError Unit :=
  match columns with
  | [] => .ok ()
  | (field, value) :: rest =>
    if Text.isBlank value then .error (invalidInput field (field ++ " is required"))
    else requireColumns rest

/-! ## Reading a Persona -/

namespace PeerTables

variable (codes : PeerCodes) (peers : PeerTables κ)

/-- The rows that `resolve_by_did` joins. -/
def didMatch (owner did : String) : Option (PersonaRow × RouteRow) :=
  (peers.identifiers.find? (·.isIdentifier owner .did did)).bind fun identifier =>
  (peers.personas.find? (·.isPersona owner identifier.peerPersonaId)).bind fun persona =>
  (peers.routes.find? (·.isRouteOf owner persona.peerPersonaId)).map fun route =>
    (persona, route)

def resolveByDid (owner did : String) : Except ImError (Option ResolvedPersona) :=
  let owner := Text.trim owner
  match peers.didMatch owner (Text.trim did) with
  | none => .ok none
  | some (row, route) => do
      let persona ← PeerPersona.fromVerifiedHandle codes row.authorityNamespace
        row.authoritySubjectId row.fullHandle (some "verified")
      if persona.peerPersonaId ≠ row.peerPersonaId then
        .error (.identityBindingConflict
          "stored DID binding does not match its immutable Persona identity")
      else if persona.directConversationId codes ≠ route.conversationId then
        .error (.identityBindingConflict
          "stored Direct route does not match its immutable Persona identity")
      else
        .ok (some { peerPersonaId := persona.peerPersonaId
                    conversationId := persona.directConversationId codes })

/-- The rows that `resolve_by_handle` joins. -/
def handleMatches (owner handle : String) : List (PersonaRow × RouteRow) :=
  (peers.identifiers.filter fun row =>
    row.isIdentifier owner .handle handle && row.isCurrent).flatMap fun identifier =>
  (peers.personas.filter (·.isPersona owner identifier.peerPersonaId)).flatMap fun persona =>
  (peers.routes.filter (·.isRouteOf owner persona.peerPersonaId)).flatMap fun route =>
  (peers.identifiers.filter fun row => row.isCurrentDidOf owner persona.peerPersonaId &&
    row.value == route.currentDid).map fun _ => (persona, route)

def resolveByHandle (owner handle : String) : Except ImError (Option ResolvedPersona) :=
  if Text.isBlank owner then
    .error (invalidInput "owner_identity_id" "owner_identity_id is required")
  else if Text.isBlank handle then .error (invalidInput "handle" "handle must not be empty")
  else
    let handle := Text.toAsciiLowercase (Text.trimStartMatches '@' (Text.trim handle))
    match peers.handleMatches (Text.trim owner) handle with
    | [] => .ok none
    | [(row, route)] => do
        let persona ← PeerPersona.fromVerifiedHandle codes row.authorityNamespace
          row.authoritySubjectId row.fullHandle (some "verified")
        if persona.fullHandle ≠ handle ∨ persona.peerPersonaId ≠ row.peerPersonaId then
          .error (.identityBindingConflict
            "stored Handle binding does not match its immutable Persona identity")
        else if persona.directConversationId codes ≠ route.conversationId then
          .error (.identityBindingConflict
            "stored Direct route does not match its immutable Persona identity")
        else do
          let _did ← parseDid route.currentDid
          .ok (some { peerPersonaId := persona.peerPersonaId
                      conversationId := persona.directConversationId codes })
    | _ =>
      .error (.identityBindingConflict "Handle is bound to multiple canonical Direct routes")

def generation? (owner persona : String) : Option String :=
  (peers.personas.find? (·.isPersona owner persona)).bind (·.bindingGeneration)

def currentDid? (owner persona : String) : Option String :=
  (((peers.identifiers.filter (·.isCurrentDidOf owner persona)).insertionSort
    fun a b => b.lastSeenAt ≤ a.lastSeenAt).head?).map (·.value)

def checkGeneration (stored next : Option String) (current : Option String) (nextDid : String) :
    Except ImError Unit :=
  let changes := current.any (· != nextDid)
  match stored, next with
  | some stored, some next => do
      let ordering ← compareDecimal next stored
      if ordering = .lt then
        .error (.identityBindingConflict "Handle binding generation cannot move backwards")
      else if ordering = .eq ∧ changes then
        .error (.identityBindingConflict
          "Handle DID cannot change at the same binding generation")
      else .ok ()
  | some _, none =>
    if changes then
      .error (.identityBindingConflict
        "Handle DID rotation requires a newer binding generation")
    else .ok ()
  | none, none =>
    if changes then
      .error (.identityBindingConflict "Handle DID rotation requires a binding generation")
    else .ok ()
  | none, some _ => .ok ()

def validateProjectionGeneration (owner persona nextDid : String) (next : Option String) :
    Except ImError (Option String) := do
  next.elim (.ok ()) (validatePositiveDecimal "binding_generation")
  let stored := peers.generation? (Text.trim owner) (Text.trim persona)
  refuse (stored.any fun generation => !isPositiveDecimalColumn generation)
    (.localStateUnavailable "stored peer Persona has an invalid binding generation")
  checkGeneration stored next (peers.currentDid? (Text.trim owner) (Text.trim persona)) nextDid
  .ok (next.or stored)

def didsForPersona (owner persona : String) : List String :=
  ((peers.identifiers.filter (·.isDidOf (Text.trim owner) (Text.trim persona))).insertionSort
    fun a b => a.didOrder b ≠ .gt).map (·.value)

end PeerTables

/-! ## Writing a Persona -/

/-- `peer_personas::upsert` with the columns of a verified Handle. -/
def upsertPersona (owner : String) (persona : PeerPersona) (generation : Option String)
    (verifiedAt : String) : PeerM κ Unit := do
  let owner := Text.trim owner
  attempt (requireColumns [("owner_identity_id", owner),
    ("peer_persona_id", persona.peerPersonaId), ("source", "handle_authority"),
    ("verified_at", verifiedAt)])
  let isRow (row : PersonaRow) : Bool := row.isPersona owner persona.peerPersonaId
  let isSame (row : PersonaRow) : Bool :=
    row.authorityNamespace == persona.authorityNamespace &&
      row.authoritySubjectId == persona.authoritySubjectId &&
      row.fullHandle == persona.fullHandle
  -- The unique key over the authority, the subject and the Handle.
  let taken ← query fun db => db.others.personas.any fun row =>
    row.ownerIdentityId == owner && isSame row && !isRow row
  refuseIf taken (.localStateUnavailable "UNIQUE constraint failed: peer_personas")
  onPeers fun peers =>
    { peers with
      personas := Rows.upsertWhere isRow
        { ownerIdentityId := owner
          peerPersonaId := persona.peerPersonaId
          authorityNamespace := persona.authorityNamespace
          authoritySubjectId := persona.authoritySubjectId
          fullHandle := persona.fullHandle
          bindingGeneration := generation
          source := "handle_authority" }
        (fun row => if isSame row then
          { row with
            bindingGeneration := generation.or row.bindingGeneration
            source := "handle_authority" }
          else row) peers.personas }
  let stored ← query fun db => db.others.personas.find? isRow
  refuseIf (!stored.any isSame) (.identityBindingConflict
    "peer Persona immutable authority identity does not match stored state")

/-- `peer_identifiers::bind`, of an identifier that is current. -/
def bindIdentifier (owner persona : String) (kind : IdentifierKind)
    (value source verifiedAt now : String) : PeerM κ Unit := do
  attempt (requireColumns [("owner_identity_id", owner), ("peer_persona_id", persona),
    ("identifier_kind", kind.asStr), ("identifier_value", value), ("source", source),
    ("verified_at", verifiedAt)])
  let owner := Text.trim owner
  let persona := Text.trim persona
  let value := Text.trim value
  let isRow (row : IdentifierRow) : Bool := row.isIdentifier owner kind value
  let known ← query fun db => db.others.identifiers.any isRow ||
    db.others.personas.any (·.isPersona owner persona)
  refuseIf (!known) (.localStateUnavailable "FOREIGN KEY constraint failed")
  onPeers fun peers =>
    { peers with
      identifiers := Rows.upsertWhere isRow
        { ownerIdentityId := owner
          peerPersonaId := persona
          kind := kind
          value := value
          isCurrent := true
          source := Text.trim source
          lastSeenAt := now } id peers.identifiers }
  let existing ← query fun db => db.others.identifiers.find? isRow
  refuseIf (existing.map (·.peerPersonaId) != some persona) (.identityBindingConflict
    (kind.asStr ++ " identifier is already bound to another Persona"))
  onPeers fun peers =>
    { peers with
      identifiers := Rows.updateWhere isRow
        (fun row => { row with
          isCurrent := true
          source := Text.trim source
          lastSeenAt := now }) peers.identifiers }

/-! ## Routes -/

def PeerPersona.route (codes : PeerCodes) (persona : PeerPersona) (owner did : String) :
    RouteRow :=
  { ownerIdentityId := owner
    conversationId := persona.directConversationId codes
    peerPersonaId := some persona.peerPersonaId
    authorityNamespace := some persona.authorityNamespace
    peerUserId := persona.authoritySubjectId
    fullHandle := persona.fullHandle
    currentDid := did }

namespace RouteRow

def fromVerifiedPersona (codes : PeerCodes) (owner : String) (persona : PeerPersona)
    (currentDid : String) : Except ImError RouteRow := do
  let did ← requiredText "current_did" currentDid
  let _did ← parseDid did
  let owner ← requiredText "owner_identity_id" owner
  .ok (persona.route codes owner did)

def new (codes : PeerCodes) (owner conversation userId handle currentDid : String) :
    Except ImError RouteRow := do
  let owner ← requiredText "owner_identity_id" owner
  let conversation ← requiredText "conversation_id" conversation
  let userId ← requiredText "peer_user_id" userId
  let handle ← requiredText "peer_full_handle" handle
  let handle := Text.toAsciiLowercase handle
  refuse (conversation != peerScopeConversationId codes userId handle)
    (invalidInput "conversation_id"
      "conversation_id does not match the resolved Direct peer scope")
  let did ← requiredText "current_did" currentDid
  let _did ← parseDid did
  .ok { ownerIdentityId := owner
        conversationId := conversation
        peerPersonaId := none
        authorityNamespace := none
        peerUserId := userId
        fullHandle := handle
        currentDid := did }

def validateRecord (codes : PeerCodes) (route : RouteRow) : Except ImError Unit :=
  match route.peerPersonaId, route.authorityNamespace with
  | some personaId, some authority => do
      let persona ← PeerPersona.fromVerifiedHandle codes authority route.peerUserId
        route.fullHandle (some "active")
      refuse (personaId != persona.peerPersonaId ||
          route.conversationId != persona.directConversationId codes)
        (.identityBindingConflict "Direct route does not match its canonical Persona")
      let _did ← parseDid route.currentDid
      .ok ()
  | none, none => do
      let validated ← new codes route.ownerIdentityId route.conversationId route.peerUserId
        route.fullHandle route.currentDid
      if validated ≠ route then
        .error (.localStateUnavailable "Direct peer route normalization mismatch")
      else .ok ()
  | _, _ => .error (.identityBindingConflict "Direct route has a partial Persona binding")

end RouteRow

/-- `direct_peer_routes::upsert`. -/
def upsertRoute (codes : PeerCodes) (route : RouteRow) : PeerM κ Unit := do
  attempt (route.validateRecord codes)
  let isRow (row : RouteRow) : Bool := row.isRoute route.ownerIdentityId route.conversationId
  -- The unique key over the subject and the Handle.
  let taken ← query fun db => db.others.routes.any fun row =>
    row.ownerIdentityId == route.ownerIdentityId && row.peerUserId == route.peerUserId &&
      row.fullHandle == route.fullHandle && !isRow row
  refuseIf taken (.localStateUnavailable "UNIQUE constraint failed: direct_peer_routes")
  onPeers fun peers =>
    { peers with
      routes := Rows.upsertWhere isRow route
        (fun row => { route with
          peerPersonaId := route.peerPersonaId.or row.peerPersonaId
          authorityNamespace := route.authorityNamespace.or row.authorityNamespace })
        peers.routes }

/-- `conversation_aliases::resolve`. -/
def Directory.resolveAlias (directory : Directory κ) (owner kind conversation : String) :
    Option String :=
  (directory.aliases.find?
    (·.isAlias (Text.trim owner) (Text.trim kind) (Text.trim conversation))).map
    (·.canonicalConversationId)

/-- `direct_peer_routes::get`. -/
def getRoute (codes : PeerCodes) (peers : PeerTables κ) (owner conversation : String) :
    Except ImError (Option RouteRow) := do
  let owner ← requiredText "owner_identity_id" owner
  let conversation ← requiredText "conversation_id" conversation
  let conversation := (peers.directory.resolveAlias owner "verified_foreign_persona"
    conversation).getD conversation
  match peers.routes.find? (·.isRoute owner conversation) with
  | none => .ok none
  | some route =>
    match route.validateRecord codes with
    | .ok () => .ok (some route)
    | .error _ => .error (.localStateUnavailable "Direct peer route integrity check failed")

/-- The statements of `compare_and_set_verified_transition` up to the commit. -/
def setVerifiedTransition (owner conversation persona expected verified now : String) :
    PeerM κ (Ending Unit) := do
  let isOld (row : IdentifierRow) : Bool :=
    row.isCurrentDidOf owner persona && row.value == expected
  let found ← query fun db => db.others.identifiers.filter isOld
  onPeers fun peers =>
    { peers with
      identifiers := Rows.updateWhere isOld
        (fun row => { row with isCurrent := false, lastSeenAt := now }) peers.identifiers }
  refuseIf (found.length != 1) (.identityBindingConflict
    "Direct route predecessor is not the current Persona DID")
  bindIdentifier owner persona .did verified "verified_did_transition" now now
  let isRow (row : RouteRow) : Bool :=
    row.isRoute owner conversation && row.currentDid == expected &&
      row.peerPersonaId == some persona
  let updated ← query fun db => db.others.routes.filter isRow
  onPeers fun peers =>
    { peers with
      routes := Rows.updateWhere isRow (fun row => { row with currentDid := verified })
        peers.routes }
  refuseIf (updated.length != 1) (.identityBindingConflict
    "Direct route CAS lost a concurrent DID transition")
  return .commit ()

/-- `compare_and_set_verified_transition`: the route is read again after the commit. -/
def compareAndSetVerifiedTransition (codes : PeerCodes)
    (owner conversation expected verified now : String) : PeerM κ RouteRow := do
  let found ← query fun db => getRoute codes db.others owner conversation
  let found ← attempt found
  let route ← orError found (.identityBindingConflict
    "verified DID transition has no existing Direct route")
  refuseIf (route.currentDid != expected) (.identityBindingConflict
    "Direct route changed while DID transition was being verified")
  let persona ← orError route.peerPersonaId (.identityBindingConflict
    "verified DID transition route has no immutable Persona")
  immediate (setVerifiedTransition owner conversation persona expected verified now)
  let found ← query fun db => getRoute codes db.others owner conversation
  let found ← attempt found
  orError found (.identityBindingConflict "Direct route disappeared after DID transition CAS")

/-! ## Conversations -/

/-- `canonical_identity_for_record`: the Persona of a Direct conversation. -/
def PeerTables.routedPersona (peers : PeerTables κ) (owner conversation : String) :
    Option String :=
  ((peers.routes.filter fun row => row.isRoute owner conversation &&
    row.peerPersonaId.any fun persona => Text.sqlTrim persona != "").head?).bind
    (·.peerPersonaId)

/-- `conversation_registry::ensure` for a Direct conversation. -/
def ensureDirect (owner ownerDid conversation activityAt : String) : PeerM κ Unit := do
  attempt (requireColumns [("owner_identity_id", owner), ("owner_did", ownerDid),
    ("conversation_id", conversation), ("thread_id", conversation),
    ("activity_at", activityAt)])
  let persona ← query fun db => db.others.routedPersona owner conversation
  let isRow (row : RegistryRow) : Bool := row.isConversation owner conversation
  let new : RegistryRow :=
    { ownerIdentityId := owner
      conversationId := conversation
      threadKind := "direct"
      peerPersonaId := persona
      lifecycle := .active
      resolution := if persona.isSome then .resolved else .legacyUnresolved }
  let merge (row : RegistryRow) : RegistryRow :=
    { row with
      threadKind := "direct"
      peerPersonaId := persona.or row.peerPersonaId
      lifecycle := if row.lifecycle = .merged then .merged else .active
      resolution :=
        if row.resolution = .blockedConflict then .blockedConflict
        else if row.lifecycle = .merged then row.resolution
        else new.resolution }
  onDirectory fun directory =>
    { directory with registry := Rows.upsertWhere isRow new merge directory.registry }
  -- The unique index over owner and Persona.
  let taken ← query fun db => (db.others.directory.registry.filter fun row =>
    row.ownerIdentityId == owner && row.peerPersonaId.isSome &&
      row.peerPersonaId == persona && row.isActiveDirect).length
  refuseIf (decide (1 < taken)) (.localStateUnavailable
    "UNIQUE constraint failed: conversation_registry")

def markMerged (owner conversation canonical : String) : PeerM κ Unit := do
  let owner := Text.trim owner
  let target ← query fun db => db.others.directory.registry.any fun row =>
    row.isConversation owner (Text.trim canonical) && row.lifecycle == .active &&
      row.resolution == .resolved
  refuseIf (!target) (.identityUnresolved
    "canonical merge target is not an active resolved conversation")
  onDirectory fun directory =>
    { directory with
      registry := Rows.updateWhere (·.isConversation owner (Text.trim conversation))
        (fun row => { row with lifecycle := .merged, resolution := .resolved })
        directory.registry }

/-- `conversation_aliases::insert`. -/
def insertAlias (entry : AliasRow) (source verifiedAt : String) : PeerM κ Unit := do
  let owner := Text.trim entry.ownerIdentityId
  let kind := Text.trim entry.aliasKind
  let conversation := Text.trim entry.aliasConversationId
  let canonical := Text.trim entry.canonicalConversationId
  attempt (requireColumns [("owner_identity_id", owner), ("alias_kind", kind),
    ("alias_conversation_id", conversation), ("canonical_conversation_id", canonical),
    ("source", source), ("verified_at", verifiedAt)])
  refuseIf (conversation == canonical) (invalidInput "alias_conversation_id"
    "alias must not equal its canonical target")
  let targetIsAlias ← query fun db => db.others.directory.aliases.any fun row =>
    row.ownerIdentityId == owner && row.aliasConversationId == canonical
  refuseIf targetIsAlias (.identityBindingConflict
    "conversation alias target must be a canonical registry id, not another alias")
  let targetIsResolved ← query fun db => db.others.directory.registry.any fun row =>
    row.isConversation owner canonical && row.lifecycle != .merged &&
      row.resolution == .resolved
  refuseIf (!targetIsResolved) (.identityUnresolved
    "conversation alias target must be a resolved canonical registry row")
  onDirectory fun directory =>
    { directory with
      aliases := Rows.upsertWhere (·.isAlias owner kind conversation)
        { ownerIdentityId := owner
          aliasKind := kind
          aliasConversationId := conversation
          canonicalConversationId := canonical } id directory.aliases }
  let existing ← query fun db => db.others.directory.resolveAlias owner kind conversation
  refuseIf (existing != some canonical) (.conversationAliasConflict conversation
    (existing.getD "") canonical)

end LocalState
end Awiki
