import Awiki.PeerWrites
import Awiki.TransitionRuns

/-!
# The projection of verified peers stays consistent

Projections and DID transitions are run in any order.  A DID and a Handle belong to one
Persona, the route of a Persona names its only current DID, generations never move back and
aliases lead to registered conversations that are no aliases.

A transition commits before it reads the route again, and it stores the DID as it was
given.  So the results are about runs whose transitions are given a DID in canonical form;
the last section shows what happens otherwise.
-/

namespace Awiki
namespace LocalState

open Tx

variable {κ : Type} {s t : PeerDb κ} {codes : PeerCodes} {context : PeerContext κ} {e : ImError}
  {row : IdentifierRow} {route : RouteRow}

/-! ## What a projection leaves behind -/

structure PeerProjected (codes : PeerCodes) (owner did : String) (persona : PeerPersona)
    (generation : Option String) (legacy : Option LegacyPersona) (s t : PeerDb κ) : Prop where
  generation : t.others.generation? owner persona.peerPersonaId =
    generation.or (s.others.generation? owner persona.peerPersonaId)
  personas : ∀ o p, ¬ (o = owner ∧ p = persona.peerPersonaId) →
    t.others.personas.find? (·.isPersona o p) = s.others.personas.find? (·.isPersona o p)
  identifiers : PersonaBound owner persona.peerPersonaId did
    (legacy.elim s.others.identifiers fun old =>
      moveIdentifiers owner old.personaId persona.peerPersonaId s.others.identifiers)
    t.others.identifiers
  routes : ∀ row ∈ t.others.routes, row = persona.route codes owner did ∨
    row ∈ s.others.routes ∧
      row.isRoute owner (persona.directConversationId codes) = false ∧
      ∀ old ∈ legacy, row.isRoute owner old.conversationId = false
  routed : persona.route codes owner did ∈ t.others.routes
  backlog : t.backlog = s.backlog
  backlogBindings : t.backlogBindings = s.backlogBindings
  aliases : s.others.directory.AliasesOk → t.others.directory.AliasesOk

variable {owner : String} {v : Unit} {did ownerDid now conversation : String}
  {lookup : HandleLookup} {home : Option String} {persona expected verified : String}
  {route : RouteRow} {peers : PeerTables κ}

theorem projectProfile_ok {persona : PeerPersona} {profile : Option Json}
    (h : (projectProfile context owner persona profile).run s = .ok v t) :
    ∃ rest, t = { s with others := { s.others with
      directory := { s.others.directory with rest := rest } } } := by
  unfold projectProfile at h
  split at h
  · obtain ⟨-, rfl⟩ := pure_ok.mp h
    exact ⟨_, rfl⟩
  · simp only [bind_ok, query_ok, attempt_ok, onDirectory_ok] at h
    obtain ⟨_, _, ⟨-, rfl⟩, rest, _, ⟨-, rfl⟩, rfl⟩ := h
    exact ⟨rest, rfl⟩

theorem bindContacts_ok {persona : PeerPersona} (h : (bindContacts owner persona).run s = .ok v t) :
    ∃ contacts, t = { s with others := { s.others with contacts := contacts } } := by
  simp only [bindContacts, bind_ok, query_ok, refuseIf_ok, onPeers_ok] at h
  obtain ⟨_, _, ⟨-, rfl⟩, _, _, ⟨-, rfl⟩, rfl⟩ := h
  exact ⟨_, rfl⟩

theorem trim_directConversationId (h : Text.startsWith (Text.trim did) "did:" = true) :
    Text.trim (directConversationId did) = directConversationId did := by
  unfold directConversationId
  split
  · decide +kernel
  · have hne : Text.trim did ≠ "" := by
      intro hempty
      rw [hempty] at h
      cases h
    exact Text.trim_append (Text.trim_trim did) hne (by decide +kernel)

theorem openDirect_ok {persona : PeerPersona} (hcodes : context.toPeerCodes.Sound)
    (h : (openDirect context owner ownerDid persona did now).run s = .ok conversation t) :
    conversation = persona.directConversationId context.toPeerCodes ∧
      t.others.personas = s.others.personas ∧
      t.others.identifiers = s.others.identifiers ∧
      t.backlog = s.backlog ∧ t.backlogBindings = s.backlogBindings ∧
      (∀ row, row ∈ t.others.routes ↔
        row = persona.route context.toPeerCodes (Text.trim owner) (Text.trim did) ∨
        row ∈ s.others.routes ∧ row.isRoute (Text.trim owner)
          (persona.directConversationId context.toPeerCodes) = false) ∧
      (s.others.directory.AliasesOk → t.others.directory.AliasesOk) := by
  simp only [openDirect, bind_ok, attempt_ok, pure_ok] at h
  obtain ⟨route, _, ⟨hroute, rfl⟩, _, s₁, hopen, _, s₂, halias, rfl, rfl⟩ := h
  obtain ⟨rfl, hdid⟩ := fromVerifiedPersona_ok hroute
  have hopened := openRoute_ok hopen
  have haliased := insertAlias_ok halias (Text.trim_trim owner) (trim_directConversationId hdid)
    (trim_peerScopeConversationId hcodes _ _)
  have hstore := haliased.store
  refine ⟨rfl, ?_, ?_, ?_, ?_, ?_, ?_⟩
  · rw [hstore]
    exact hopened.personas
  · rw [hstore]
    exact hopened.identifiers
  · rw [hstore]
    exact hopened.backlog
  · rw [hstore]
    exact hopened.backlogBindings
  · rw [hstore]
    exact hopened.routes
  · intro hs
    have hs₁ := hopened.aliases hs
    -- The alias of a DID is no conversation of a Persona, so it is nobody's target.
    refine haliased.aliasesOk hs₁ (fun row hrow _ htarget => ?_) (startsWith_peerScope _ _ _)
    have hscope := hs₁.scope row hrow
    rw [htarget, not_startsWith_peerScope hdid] at hscope
    cases hscope

theorem projectPersona_ok
    {persona : PeerPersona} (hcodes : context.toPeerCodes.Sound)
    (hpersona : persona.Canonical context.toPeerCodes)
    (hunique : Rows.UniqueKey IdentifierRow.key s.others.identifiers)
    (hlegacy : ∀ old, prepareRepair context.toPeerCodes s.others owner lookup home =
        .ok (some old) →
      Text.trim owner = owner ∧ Text.trim old.conversationId = old.conversationId)
    (h : (projectPersona context owner ownerDid lookup home persona now).run s =
      .ok conversation t) :
    ∃ legacy generation,
      prepareRepair context.toPeerCodes s.others owner lookup home = .ok legacy ∧
      s.others.validateProjectionGeneration owner persona.peerPersonaId lookup.did
        lookup.bindingGeneration = .ok generation ∧
      conversation = persona.directConversationId context.toPeerCodes ∧
      PeerProjected context.toPeerCodes (Text.trim owner) (Text.trim lookup.did) persona generation
        legacy s t := by
  simp only [projectPersona, bind_ok, attempt_ok, query_ok] at h
  obtain ⟨_, _, ⟨rfl, rfl⟩, legacy, _, ⟨hprepared, rfl⟩, _, _, ⟨rfl, rfl⟩, generation, _,
    ⟨hgeneration, rfl⟩, _, s₁, hupsert, _, s₂, hmigrate, _, s₃, hbind, _, s₄, hprofile, _, s₅,
    hcontacts, hopen⟩ := h
  refine ⟨legacy, generation, hprepared, hgeneration, ?_⟩
  obtain ⟨personas, rfl, hgen, hothers⟩ := upsertPersona_ok hupsert
  -- The repair, if there is one.
  have hrepaired : s₂.others.personas = personas ∧
      s₂.others.identifiers = (legacy.elim s.others.identifiers fun old =>
        moveIdentifiers (Text.trim owner) old.personaId persona.peerPersonaId
          s.others.identifiers) ∧
      (∀ row ∈ s₂.others.routes,
        (row = persona.route context.toPeerCodes (Text.trim owner) (Text.trim lookup.did) ∨
          row ∈ s.others.routes) ∧
        ∀ old ∈ legacy, row.isRoute (Text.trim owner) old.conversationId = false) ∧
      s₂.backlog = s.backlog ∧ s₂.backlogBindings = s.backlogBindings ∧
      (s.others.directory.AliasesOk → s₂.others.directory.AliasesOk) := by
    cases legacy with
    | none =>
      obtain ⟨-, rfl⟩ := pure_ok.mp hmigrate
      exact ⟨rfl, rfl, fun row hrow => ⟨.inr hrow, by simp⟩, rfl, rfl, id⟩
    | some old =>
      obtain ⟨howner, hconversation⟩ := hlegacy old hprepared
      have hrepaired := migrateRepair_ok hcodes howner hconversation hmigrate
      rw [howner]
      refine ⟨hrepaired.personas, hrepaired.identifiers, fun row hrow => ?_,
        hrepaired.backlog, hrepaired.backlogBindings, hrepaired.aliases⟩
      obtain ⟨hother, hrow⟩ := hrepaired.routes row hrow
      exact ⟨hrow, by simpa using hother⟩
  obtain ⟨hpersonas, hidentifiers, hroutes, hbacklog, hbindings, haliases⟩ := hrepaired
  have hunique₂ : Rows.UniqueKey IdentifierRow.key s₂.others.identifiers := by
    rw [hidentifiers]
    cases legacy with
    | none => exact hunique
    | some old => exact hunique.updateWhere fun _ => rfl
  obtain ⟨rows, rfl, hbound⟩ := bindPersona_ok (hpersona.trim_id hcodes) hunique₂ hbind
  obtain ⟨rest, rfl⟩ := projectProfile_ok hprofile
  obtain ⟨contacts, rfl⟩ := bindContacts_ok hcontacts
  obtain ⟨hconversation, hp, hi, hb, hbb, hr, ha⟩ := openDirect_ok hcodes hopen
  refine ⟨hconversation, ?_⟩
  constructor
  · unfold PeerTables.generation?
    rw [hp]
    show (s₂.others.personas.find? _).bind _ = _
    rw [hpersonas]
    exact hgen
  · intro o p hne
    rw [hp]
    show s₂.others.personas.find? _ = _
    rw [hpersonas, hothers o p hne]
  · rw [hi, ← hidentifiers]
    exact hbound
  · intro row hrow
    rcases (hr row).mp hrow with h | ⟨h, hother⟩
    · exact .inl h
    · obtain ⟨hrow, hold⟩ := hroutes row h
      rcases hrow with hrow | hrow
      · exact .inl hrow
      · exact .inr ⟨hrow, hother, hold⟩
  · exact (hr _).mpr (.inl rfl)
  · rw [hb]
    exact hbacklog
  · rw [hbb]
    exact hbindings
  · intro hs
    have hs₂ := haliases hs
    exact ha ⟨hs₂.registered, hs₂.flat, hs₂.scope⟩

/-! ## What a projection has checked -/

theorem prepareRepair_ok {old : LegacyPersona} (hcodes : codes.Sound)
    (h : prepareRepair codes peers owner lookup home = .ok (some old)) :
    (∃ row ∈ peers.identifiers, row.ownerIdentityId = owner) ∧
      ∃ q : PeerPersona, q.Canonical codes ∧ q.peerPersonaId = old.personaId ∧
        q.directConversationId codes = old.conversationId := by
  unfold prepareRepair at h
  obtain ⟨next, -, h⟩ := except_bind_ok.mp h
  split at h
  · cases h
  · obtain ⟨home', -, h⟩ := except_bind_ok.mp h
    split at h
    · cases h
    · dsimp only at h
      split at h
      · cases h
      · rename_i oldId hexisting
        obtain ⟨legacy, hlegacy, h⟩ := except_bind_ok.mp h
        cases h
        have hfound := (Option.filter_eq_some_iff.mp hexisting).1
        obtain ⟨row, hrow, -⟩ := Option.map_eq_some_iff.mp hfound
        have hmatches := List.find?_some hrow
        have hkey := IdentifierRow.isIdentifier_iff.mp hmatches
        refine ⟨⟨row, List.mem_of_find?_eq_some hrow, congrArg Prod.fst hkey⟩, ?_⟩
        unfold checkLegacyPersona at hlegacy
        simp only [except_bind_ok] at hlegacy
        obtain ⟨_, -, persona, hpersona, _, hcolumns, _, -, resolved, -, _, hroute, _, -, _, -, _,
          -, hlegacy⟩ := hlegacy
        cases hlegacy
        simp only [refuse_ok, Bool.or_eq_false_iff, bne_eq_false_iff_eq] at hcolumns hroute
        exact ⟨persona, PeerPersona.canonical_of_ok hcodes hpersona, hcolumns.1.1.1.1,
          hroute.2.symm⟩

section Generations

variable {peers : PeerTables κ} {owner persona did : String} {next generation : Option String}

theorem validateProjectionGeneration_ok (hpersona : Text.trim persona = persona)
    (h : peers.validateProjectionGeneration owner persona did next = .ok generation) :
    generation = next.or (peers.generation? (Text.trim owner) persona) ∧
      PeerTables.checkGeneration (peers.generation? (Text.trim owner) persona) next
        (peers.currentDid? (Text.trim owner) persona) did = .ok () := by
  unfold PeerTables.validateProjectionGeneration at h
  rw [hpersona] at h
  replace h := except_then (except_then h)
  obtain ⟨_, hcheck, h⟩ := except_bind_ok.mp h
  cases h
  exact ⟨rfl, hcheck⟩

theorem checkGeneration_ok {stored current : Option String} {g : String}
    (h : PeerTables.checkGeneration stored next current did = .ok ()) (hstored : stored = some g) :
    ∃ g', next.or stored = some g' ∧ Decimal.value g ≤ Decimal.value g' ∧
      ((∃ d, current = some d ∧ d ≠ did) → Decimal.value g < Decimal.value g') := by
  subst hstored
  cases next with
  | none =>
    refine ⟨g, rfl, le_rfl, ?_⟩
    rintro ⟨d, rfl, hd⟩
    simp [PeerTables.checkGeneration, hd] at h
  | some n =>
    refine ⟨n, rfl, ?_⟩
    simp only [PeerTables.checkGeneration] at h
    obtain ⟨ordering, hcompare, h⟩ := except_bind_ok.mp h
    obtain ⟨hn, hg, rfl⟩ := compareDecimal_ok.mp hcompare
    split at h
    · cases h
    · rename_i hlt
      split at h
      · cases h
      · rename_i hchange
        have hle : Decimal.value g ≤ Decimal.value n := by
          by_contra hcontra
          exact hlt ((Decimal.order_lt_iff hn hg).mpr (by omega))
        refine ⟨hle, ?_⟩
        rintro ⟨d, rfl, hd⟩
        apply (Decimal.order_lt_iff hg hn).mp
        rw [Decimal.order_swap]
        cases horder : Decimal.order n g with
        | lt => exact absurd horder hlt
        | eq => exact absurd ⟨horder, by simp [hd]⟩ hchange
        | gt => rfl

theorem currentDid?_eq_some (hrow : row ∈ peers.identifiers)
    (hcurrent : row.isCurrentDidOf owner persona = true)
    (hone : ∀ other ∈ peers.identifiers, other.isCurrentDidOf owner persona = true →
      other.value = row.value) : peers.currentDid? owner persona = some row.value := by
  unfold PeerTables.currentDid?
  generalize hrows : (peers.identifiers.filter (·.isCurrentDidOf owner persona)).insertionSort
    (fun a b => b.lastSeenAt ≤ a.lastSeenAt) = rows
  have hmem : ∀ other, other ∈ rows ↔
      other ∈ peers.identifiers ∧ other.isCurrentDidOf owner persona = true := by
    intro other
    rw [← hrows, List.mem_insertionSort, List.mem_filter]
  cases rows with
  | nil => exact absurd ((hmem row).mpr ⟨hrow, hcurrent⟩) (by simp)
  | cons first rest =>
    obtain ⟨hfirst, hfirstCurrent⟩ := (hmem first).mp List.mem_cons_self
    simp [hone first hfirst hfirstCurrent]

end Generations

/-! ## The invariant -/

structure PeerBase (codes : PeerCodes) (db : PeerDb κ) : Prop where
  unique : Rows.UniqueKey IdentifierRow.key db.others.identifiers
  trimmed : ∀ row ∈ db.others.identifiers,
    Text.trim row.ownerIdentityId = row.ownerIdentityId ∧ Text.trim row.value = row.value
  canonical : ∀ row ∈ db.others.routes, ∃ persona : PeerPersona, persona.Canonical codes ∧
    row = persona.route codes row.ownerIdentityId row.currentDid

structure PeerInv (codes : PeerCodes) (db : PeerDb κ) : Prop extends PeerBase codes db where
  current : ∀ owner persona, ∀ a ∈ db.others.identifiers, ∀ b ∈ db.others.identifiers,
    a.isCurrentDidOf owner persona = true → b.isCurrentDidOf owner persona = true →
    a.value = b.value
  routes : ∀ row ∈ db.others.routes, ∀ persona, row.peerPersonaId = some persona →
    ∃ identifier ∈ db.others.identifiers,
      identifier.isCurrentDidOf row.ownerIdentityId persona = true ∧
      identifier.value = row.currentDid
  aliases : db.others.directory.AliasesOk
  backlog : db.backlog = []

theorem id_of_route {p : PeerPersona} {id : String} (hroute : route = p.route codes owner did)
    (hid : route.peerPersonaId = some id) : p.peerPersonaId = id := by
  rw [hroute] at hid
  exact Option.some.inj hid

section Project

variable {owner did : String} {persona : PeerPersona} {generation : Option String}
  {legacy : Option LegacyPersona}

variable {rows : List IdentifierRow} {row : IdentifierRow} {new : String}

theorem mem_moved_iff (hnew : row.isOf owner new = false) :
    (row ∈ legacy.elim rows fun old => moveIdentifiers owner old.personaId new rows) ↔
      row ∈ rows ∧ ∀ old ∈ legacy, row.isOf owner old.personaId = false := by
  cases legacy with
  | none => simp
  | some old =>
    simp only [Option.elim_some, Option.mem_some_iff, forall_eq']
    refine ⟨fun hmem => ?_, fun hmem => Rows.mem_updateWhere_of_not hmem.1 hmem.2⟩
    rcases Rows.updateWhere_cases hmem with hkept | ⟨row', -, hmoved, rfl⟩
    · exact hkept
    · rw [IdentifierRow.isOf_iff] at hmoved
      simp [IdentifierRow.isOf, hmoved.1] at hnew

theorem PeerProjected.mem_iff (h : PeerProjected codes owner did persona generation legacy s t)
    (hnew : row.isOf owner persona.peerPersonaId = false) :
    row ∈ t.others.identifiers ↔ row ∈ s.others.identifiers ∧
      ∀ old ∈ legacy, row.isOf owner old.personaId = false :=
  (h.identifiers.others row hnew).trans (mem_moved_iff hnew)

theorem trimmed_moved
    (h : ∀ row ∈ rows, Text.trim row.ownerIdentityId = row.ownerIdentityId ∧
      Text.trim row.value = row.value) :
    ∀ row ∈ legacy.elim rows fun old => moveIdentifiers owner old.personaId new rows,
      Text.trim row.ownerIdentityId = row.ownerIdentityId ∧ Text.trim row.value = row.value := by
  cases legacy with
  | none => exact h
  | some old =>
    exact Rows.forall_mem_updateWhere h fun _ _ htrimmed => htrimmed

theorem PeerBase.project (hs : PeerBase codes s) (hpersona : persona.Canonical codes)
    (h : PeerProjected codes owner did persona generation legacy s t) : PeerBase codes t where
  unique := h.identifiers.unique
  trimmed := h.identifiers.trimmed (trimmed_moved hs.trimmed)
  canonical := by
    intro row hrow
    rcases h.routes row hrow with rfl | ⟨hrow, -, -⟩
    · exact ⟨persona, hpersona, rfl⟩
    · exact hs.canonical row hrow

theorem PeerInv.project (hcodes : codes.Sound) (hs : PeerInv codes s)
    (hpersona : persona.Canonical codes)
    (hlegacy : ∀ old ∈ legacy, ∃ q : PeerPersona, q.Canonical codes ∧
      q.peerPersonaId = old.personaId ∧ q.directConversationId codes = old.conversationId)
    (h : PeerProjected codes owner did persona generation legacy s t) : PeerInv codes t where
  toPeerBase := hs.toPeerBase.project hpersona h
  current := by
    intro o p a ha b hb hca hcb
    by_cases hkey : o = owner ∧ p = persona.peerPersonaId
    · obtain ⟨rfl, rfl⟩ := hkey
      have hvalue := h.identifiers.current fun row hrow => (trimmed_moved hs.trimmed row hrow).2
      rw [hvalue a ha hca, hvalue b hb hcb]
    · have hother : ∀ row : IdentifierRow, row.isCurrentDidOf o p = true →
          row.isOf owner persona.peerPersonaId = false := by
        intro row hrow
        rw [IdentifierRow.isCurrentDidOf_iff] at hrow
        simp only [IdentifierRow.isOf, hrow.1, hrow.2.1, Bool.and_eq_false_iff,
          beq_eq_false_iff_ne]
        by_cases ho : o = owner
        · exact .inr fun hp => hkey ⟨ho, hp⟩
        · exact .inl ho
      exact hs.current o p a ((h.mem_iff (hother a hca)).mp ha).1 b
        ((h.mem_iff (hother b hcb)).mp hb).1 hca hcb
  routes := by
    intro row hrow id hid
    rcases h.routes row hrow with rfl | ⟨hrow, hother, hold⟩
    · cases hid
      exact h.identifiers.bound
    · obtain ⟨p, hp, hroute⟩ := hs.canonical row hrow
      obtain rfl := id_of_route hroute hid
      obtain ⟨identifier, hidentifier, hcurrent, hvalue⟩ := hs.routes row hrow _ hid
      have hconversation : row.conversationId = p.directConversationId codes :=
        congrArg RouteRow.conversationId hroute
      -- A Persona has one conversation, and this route is of another conversation.
      have hapart : ∀ q : PeerPersona, q.Canonical codes →
          row.isRoute owner (q.directConversationId codes) = false →
          identifier.isOf owner q.peerPersonaId = false := by
        intro q hq hnot
        rw [IdentifierRow.isCurrentDidOf_iff] at hcurrent
        by_contra hcontra
        simp only [Bool.not_eq_false, IdentifierRow.isOf_iff, hcurrent.1, hcurrent.2.1] at hcontra
        have hsame := hp.conversation_eq hcodes hq hcontra.2
        simp [RouteRow.isRoute, hcontra.1, hconversation, hsame] at hnot
      refine ⟨identifier, (h.mem_iff (hapart persona hpersona hother)).mpr
        ⟨hidentifier, fun old hmem => ?_⟩, hcurrent, hvalue⟩
      obtain ⟨q, hq, hid, hqconversation⟩ := hlegacy old hmem
      rw [← hid]
      exact hapart q hq (by rw [hqconversation]; exact hold old hmem)
  aliases := h.aliases hs.aliases
  backlog := by rw [h.backlog, hs.backlog]

end Project

/-! ## Transitions -/

def isPredecessor (owner persona expected : String) (row : IdentifierRow) : Bool :=
  row.isCurrentDidOf owner persona && row.value == expected

def isTransitioned (owner conversation persona expected : String) (row : RouteRow) : Bool :=
  row.isRoute owner conversation && row.currentDid == expected &&
    row.peerPersonaId == some persona

structure Transitioned (owner conversation persona expected verified : String)
    (s t : PeerDb κ) : Prop where
  store : t = { s with others := { s.others with
    identifiers := t.others.identifiers
    routes := Rows.updateWhere (isTransitioned owner conversation persona expected)
      (fun row => { row with currentDid := verified }) s.others.routes } }
  predecessor : ∃ row ∈ s.others.identifiers,
    isPredecessor owner persona expected row = true
  route : ∃ row ∈ s.others.routes,
    isTransitioned owner conversation persona expected row = true
  identifiers : ∃ new : IdentifierRow, new.ownerIdentityId = owner ∧
    new.peerPersonaId = persona ∧ new.kind = .did ∧ new.value = Text.trim verified ∧
    new.isCurrent = true ∧ ∃ retired, Bound new retired t.others.identifiers ∧
    ∃ now, retired = Rows.updateWhere (isPredecessor owner persona expected)
      (fun row => { row with isCurrent := false, lastSeenAt := now }) s.others.identifiers

theorem PeerBase.trim_owner (hs : PeerBase codes s) (hrow : row ∈ s.others.identifiers)
    (h : isPredecessor owner persona expected row = true) : Text.trim owner = owner := by
  simp only [isPredecessor, Bool.and_eq_true, IdentifierRow.isCurrentDidOf_iff] at h
  rw [← h.1.1]
  exact (hs.trimmed row hrow).1

theorem setVerifiedTransition_ok
    {ending : Ending Unit} (hs : PeerBase codes s) (hpersona : Text.trim persona = persona)
    (h : (setVerifiedTransition owner conversation persona expected verified now).run s =
      .ok ending t) :
    ending = .commit () ∧ Transitioned owner conversation persona expected verified s t := by
  simp only [setVerifiedTransition, bind_ok, query_ok, refuseIf_ok, onPeers_ok, pure_ok] at h
  obtain ⟨found, _, ⟨rfl, rfl⟩, _, s₁, rfl, _, _, ⟨hfound, rfl⟩, _, s₂, hbind, updated, _,
    ⟨rfl, rfl⟩, _, s₃, rfl, _, _, ⟨hupdated, rfl⟩, rfl, rfl⟩ := h
  have hfirst : ∃ row ∈ s.others.identifiers,
      isPredecessor owner persona expected row = true := by
    simp only [bne_eq_false_iff_eq] at hfound
    obtain ⟨row, hrow⟩ := List.exists_mem_of_length_pos (by rw [hfound]; exact Nat.one_pos)
    exact ⟨row, List.mem_filter.mp hrow⟩
  obtain ⟨row, hrow, hold⟩ := hfirst
  obtain ⟨rows, rfl, hbound⟩ := bindIdentifier_ok hbind (hs.unique.updateWhere fun _ => rfl)
  refine ⟨rfl, rfl, ⟨row, hrow, hold⟩, ?_, ?_⟩
  · simp only [bne_eq_false_iff_eq] at hupdated
    obtain ⟨route, hroute⟩ := List.exists_mem_of_length_pos (by rw [hupdated]; exact Nat.one_pos)
    exact ⟨route, List.mem_filter.mp hroute⟩
  · exact ⟨_, hs.trim_owner hrow hold, hpersona, rfl, rfl, rfl, _, hbound, now, rfl⟩

theorem PeerBase.transition (hs : PeerBase codes s)
    (h : Transitioned owner conversation persona expected verified s t) : PeerBase codes t := by
  obtain ⟨new, hown, -, -, hvalue, -, retired, hbound, now, rfl⟩ := h.identifiers
  obtain ⟨old, hold, holdIs⟩ := h.predecessor
  constructor
  · exact hbound.unique
  · intro row hrow
    rcases (hbound.mem row).mp hrow with rfl | ⟨hrow, -⟩
    · rw [hown, hvalue]
      exact ⟨hs.trim_owner hold holdIs, Text.trim_trim _⟩
    · refine Rows.forall_mem_updateWhere hs.trimmed ?_ row hrow
      exact fun _ _ htrimmed => htrimmed
  · rw [h.store]
    refine Rows.forall_mem_updateWhere hs.canonical fun row _ hcanonical => ?_
    obtain ⟨p, hp, hroute⟩ := hcanonical
    exact ⟨p, hp, by rw [hroute]; rfl⟩

theorem PeerInv.transition (hcodes : codes.Sound) (hs : PeerInv codes s)
    (hverified : Text.trim verified = verified)
    (h : Transitioned owner conversation persona expected verified s t) : PeerInv codes t := by
  obtain ⟨new, hown, hpers, hkind, hvalue, hcur, retired, hbound, now, rfl⟩ := h.identifiers
  obtain ⟨old, hold, holdIs⟩ := h.predecessor
  simp only [isPredecessor, Bool.and_eq_true, beq_iff_eq] at holdIs
  -- The rows before the bind: as they were, or the predecessor, which is no longer current.
  have hretired : ∀ row ∈ Rows.updateWhere (isPredecessor owner persona expected)
      (fun row => { row with isCurrent := false, lastSeenAt := now }) s.others.identifiers,
      ∃ row' ∈ s.others.identifiers, row.key = row'.key ∧
        (row.isCurrent = false ∨
          row = row' ∧ isPredecessor owner persona expected row' = false) := by
    intro row hrow
    rcases Rows.updateWhere_cases hrow with ⟨hrow, hnot⟩ | ⟨row', hrow', -, rfl⟩
    · exact ⟨row, hrow, rfl, .inr ⟨rfl, hnot⟩⟩
    · exact ⟨row', hrow', rfl, .inl rfl⟩
  -- A current row of the store after is the new row, or a row of another Persona.
  have hcurrent : ∀ row ∈ t.others.identifiers, ∀ o p, row.isCurrentDidOf o p = true →
      row = new ∨ row ∈ s.others.identifiers ∧ ¬ (o = owner ∧ p = persona) := by
    intro row hrow o p hrowCurrent
    rcases (hbound.mem row).mp hrow with rfl | ⟨hrow, -⟩
    · exact .inl rfl
    · obtain ⟨row', hrow', -, hno | ⟨rfl, hnot⟩⟩ := hretired row hrow
      · rw [IdentifierRow.isCurrentDidOf_iff, hno] at hrowCurrent
        exact absurd hrowCurrent.2.2.2 (by simp)
      · refine .inr ⟨hrow', ?_⟩
        rintro ⟨rfl, rfl⟩
        have hsame := hs.current _ _ row hrow' old hold hrowCurrent holdIs.1
        simp [isPredecessor, hrowCurrent, hsame, holdIs.2] at hnot
  have hnewCurrent : new.isCurrentDidOf owner persona = true := by
    rw [IdentifierRow.isCurrentDidOf_iff]
    exact ⟨hown, hpers, hkind, hcur⟩
  have hroutes : t.others.routes = Rows.updateWhere
      (isTransitioned owner conversation persona expected)
      (fun row => { row with currentDid := verified }) s.others.routes := by
    rw [h.store]
  constructor
  · exact hs.toPeerBase.transition h
  · intro o p a ha b hb hca hcb
    have hof : new.isCurrentDidOf o p = true → o = owner ∧ p = persona := by
      intro hnew
      rw [IdentifierRow.isCurrentDidOf_iff] at hnew
      exact ⟨hnew.1.symm.trans hown, hnew.2.1.symm.trans hpers⟩
    rcases hcurrent a ha o p hca with rfl | ⟨ha, hnota⟩ <;>
      rcases hcurrent b hb o p hcb with rfl | ⟨hb, hnotb⟩
    · rfl
    · exact absurd (hof hca) hnotb
    · exact absurd (hof hcb) hnota
    · exact hs.current o p a ha b hb hca hcb
  · rw [hroutes]
    intro row hrow id hid
    rcases Rows.updateWhere_cases hrow with ⟨hrow, hno⟩ | ⟨row', -, hyes, rfl⟩
    · obtain ⟨p, hp, hroute⟩ := hs.canonical row hrow
      obtain rfl := id_of_route hroute hid
      have hconversation : row.conversationId = p.directConversationId codes :=
        congrArg RouteRow.conversationId hroute
      obtain ⟨identifier, hidentifier, hidCurrent, hidValue⟩ := hs.routes row hrow _ hid
      refine ⟨identifier, ?_, hidCurrent, hidValue⟩
      -- The route of the Persona itself was updated.
      have hapart : ¬ (row.ownerIdentityId = owner ∧ p.peerPersonaId = persona) := by
        rintro ⟨ho, hsameId⟩
        refine absurd ?_ (Bool.eq_false_iff.mp hno)
        obtain ⟨other, hother, hotherIs⟩ := h.route
        simp only [isTransitioned, RouteRow.isRoute, Bool.and_eq_true, beq_iff_eq] at hotherIs
        obtain ⟨q, hq, hotherRoute⟩ := hs.canonical other hother
        have hqid := id_of_route hotherRoute hotherIs.2
        have hsame : p.directConversationId codes = conversation := by
          rw [hp.conversation_eq hcodes hq (hsameId.trans hqid.symm), ← hotherIs.1.1.2]
          exact (congrArg RouteRow.conversationId hotherRoute).symm
        have hexpected : row.currentDid = expected := by
          rw [← hidValue, ← holdIs.2]
          apply hs.current owner persona identifier hidentifier old hold _ holdIs.1
          rw [← ho, ← hsameId]
          exact hidCurrent
        simp [isTransitioned, RouteRow.isRoute, ho, hconversation, hsame, hexpected, hid, hsameId]
      rw [IdentifierRow.isCurrentDidOf_iff] at hidCurrent
      have hof : identifier.isOf new.ownerIdentityId new.peerPersonaId = false := by
        rw [Bool.eq_false_iff, ne_eq, IdentifierRow.isOf_iff, hown, hpers, hidCurrent.1,
          hidCurrent.2.1]
        exact hapart
      rw [hbound.mem_of_not hof]
      apply Rows.mem_updateWhere_of_not hidentifier
      rw [Bool.eq_false_iff]
      intro hpred
      simp only [isPredecessor, Bool.and_eq_true, IdentifierRow.isCurrentDidOf_iff] at hpred
      exact hapart ⟨hidCurrent.1.symm.trans hpred.1.1, hidCurrent.2.1.symm.trans hpred.1.2.1⟩
    · simp only [isTransitioned, RouteRow.isRoute, Bool.and_eq_true, beq_iff_eq] at hyes
      obtain rfl : persona = id := Option.some.inj (hyes.2.symm.trans hid)
      refine ⟨new, (hbound.mem new).mpr (.inl rfl), ?_, hvalue.trans hverified⟩
      rw [hyes.1.1.1]
      exact hnewCurrent
  · rw [h.store]
    exact hs.aliases
  · rw [h.store]
    exact hs.backlog

theorem validateRecord_ok (hpersona : route.peerPersonaId.isSome = true)
    (hdid : Text.startsWith did "did:" = true) (htrimmed : Text.trim did = did)
    (h : route.validateRecord codes = .ok v) :
    ({ route with currentDid := did } : RouteRow).validateRecord codes = .ok v := by
  have hparse : parseDid did = .ok did := by
    have hblank : Text.isBlank did = false := by
      obtain ⟨rest, hrest⟩ := List.isPrefixOf_iff_prefix.mp hdid
      unfold Text.isBlank
      rw [← hrest]
      rfl
    simp [parseDid, hblank, htrimmed, hdid]
  unfold RouteRow.validateRecord at h ⊢
  cases hpid : route.peerPersonaId with
  | none => simp [hpid] at hpersona
  | some personaId =>
    cases hns : route.authorityNamespace with
    | none => simp [hpid, hns] at h
    | some authority =>
      simp only [hpid, hns] at h ⊢
      obtain ⟨persona, hp, h⟩ := except_bind_ok.mp h
      obtain ⟨_, hcheck, h⟩ := except_bind_ok.mp h
      apply except_bind_ok.mpr
      refine ⟨persona, hp, except_bind_ok.mpr ⟨_, hcheck, ?_⟩⟩
      exact except_bind_ok.mpr ⟨did, hparse, rfl⟩

theorem getRoute_ok :
    getRoute codes peers owner conversation = .ok (some route) ↔
      Text.isBlank owner = false ∧ Text.isBlank conversation = false ∧
      peers.routes.find? (·.isRoute (Text.trim owner)
        ((peers.directory.resolveAlias (Text.trim owner) "verified_foreign_persona"
          (Text.trim conversation)).getD (Text.trim conversation))) = some route ∧
      route.validateRecord codes = .ok () := by
  unfold getRoute
  constructor
  · intro h
    obtain ⟨owner', howner, h⟩ := except_bind_ok.mp h
    obtain ⟨conversation', hconversation, h⟩ := except_bind_ok.mp h
    obtain ⟨rfl, hblank⟩ := requiredText_ok howner
    obtain ⟨rfl, hblank'⟩ := requiredText_ok hconversation
    refine ⟨hblank, hblank', ?_⟩
    dsimp only at h
    split at h
    · cases h
    · rename_i found hfind
      split at h
      · rename_i hvalid
        cases h
        exact ⟨hfind, hvalid⟩
      · cases h
  · rintro ⟨howner, hconversation, hfind, hvalid⟩
    simp [requiredText, nonEmpty, howner, hconversation, hfind, hvalid, bind, Except.bind]

theorem PeerBase.trim_persona (hcodes : codes.Sound) (hs : PeerBase codes s)
    (hget : getRoute codes s.others owner conversation = .ok (some route))
    (hpersona : route.peerPersonaId = some persona) : Text.trim persona = persona := by
  obtain ⟨-, -, hfind, -⟩ := getRoute_ok.mp hget
  obtain ⟨p, hp, hroute⟩ := hs.canonical route (List.mem_of_find?_eq_some hfind)
  rw [← id_of_route hroute hpersona]
  exact hp.trim_id hcodes

theorem Transitioned.getRoute (h : Transitioned owner conversation persona expected verified s t)
    (hdid : Text.startsWith verified "did:" = true) (hverified : Text.trim verified = verified)
    (hroute : getRoute codes s.others owner conversation = .ok (some route))
    (hpersona : route.peerPersonaId = some persona) :
    ∃ route', LocalState.getRoute codes t.others owner conversation = .ok (some route') := by
  obtain ⟨howner, hconversation, hfind, hvalid⟩ := getRoute_ok.mp hroute
  have hagain : ∀ route', (if isTransitioned owner conversation persona expected route = true then
      { route with currentDid := verified } else route) = route' →
      route'.validateRecord codes = .ok () →
      ∃ route', LocalState.getRoute codes t.others owner conversation = .ok (some route') := by
    intro route' heq hvalid'
    refine ⟨route', getRoute_ok.mpr ⟨howner, hconversation, ?_, hvalid'⟩⟩
    rw [h.store]
    dsimp only
    rw [Rows.find?_updateWhere (f := fun row : RouteRow => { row with currentDid := verified })
      (fun _ => rfl), hfind]
    simpa using heq
  by_cases hyes : isTransitioned owner conversation persona expected route = true
  · exact hagain _ (if_pos hyes) (validateRecord_ok (by simp [hpersona]) hdid hverified hvalid)
  · exact hagain _ (if_neg hyes) hvalid

section Transition

variable {owner conversation expected verified now : String}

theorem compareAndSetVerifiedTransition_ok (hcodes : codes.Sound) (hs : PeerBase codes s)
    (h : (compareAndSetVerifiedTransition codes owner conversation expected verified now).run s =
      .ok route t) : ∃ persona, Transitioned owner conversation persona expected verified s t := by
  simp only [compareAndSetVerifiedTransition, bind_ok, query_ok, attempt_ok, orError_ok,
    refuseIf_ok] at h
  obtain ⟨_, _, ⟨rfl, rfl⟩, _, _, ⟨hget, rfl⟩, found, _, ⟨rfl, rfl⟩, _, _, ⟨-, rfl⟩, persona, _,
    ⟨hpersona, rfl⟩, _, u, hset, _, _, ⟨rfl, rfl⟩, _, _, ⟨-, rfl⟩, -, rfl⟩ := h
  have htrim := hs.trim_persona hcodes hget hpersona
  rcases immediate_ok.mp hset with hcommit | ⟨-, v, hrollback⟩
  · exact ⟨persona, (setVerifiedTransition_ok hs htrim hcommit).2⟩
  · obtain ⟨hend, -⟩ := setVerifiedTransition_ok hs htrim hrollback
    cases hend

theorem compareAndSetVerifiedTransition_error_cases (hcodes : codes.Sound) (hs : PeerBase codes s)
    (h : (compareAndSetVerifiedTransition codes owner conversation expected verified now).run s =
      .error e t) :
    t = s ∨ ∃ route persona, getRoute codes s.others owner conversation = .ok (some route) ∧
      route.peerPersonaId = some persona ∧
      Transitioned owner conversation persona expected verified s t ∧
      ∀ route', getRoute codes t.others owner conversation ≠ .ok (some route') := by
  unfold compareAndSetVerifiedTransition at h
  rcases bind_error.mp h with h | ⟨_, _, hquery, h⟩
  · cases h
  obtain ⟨rfl, rfl⟩ := query_ok.mp hquery
  rcases bind_error.mp h with h | ⟨_, _, hattempt, h⟩
  · exact .inl ((ReadOnly.attempt _).2 _ _ _ h)
  obtain ⟨hget, rfl⟩ := attempt_ok.mp hattempt
  rcases bind_error.mp h with h | ⟨found, _, hfound, h⟩
  · exact .inl ((ReadOnly.orError _ _).2 _ _ _ h)
  obtain ⟨rfl, rfl⟩ := orError_ok.mp hfound
  rcases bind_error.mp h with h | ⟨_, _, hrefuse, h⟩
  · exact .inl ((ReadOnly.refuseIf _ _).2 _ _ _ h)
  obtain ⟨-, rfl⟩ := refuseIf_ok.mp hrefuse
  rcases bind_error.mp h with h | ⟨persona, _, hhas, h⟩
  · exact .inl ((ReadOnly.orError _ _).2 _ _ _ h)
  obtain ⟨hpersona, rfl⟩ := orError_ok.mp hhas
  rcases bind_error.mp h with h | ⟨_, u, hset, h⟩
  · exact .inl (immediate_error h)
  have htrim := hs.trim_persona hcodes hget hpersona
  have htransitioned : Transitioned owner conversation persona expected verified s u := by
    rcases immediate_ok.mp hset with hcommit | ⟨-, v, hrollback⟩
    · exact (setVerifiedTransition_ok hs htrim hcommit).2
    · obtain ⟨hend, -⟩ := setVerifiedTransition_ok hs htrim hrollback
      cases hend
  rcases bind_error.mp h with h | ⟨_, _, hquery, h⟩
  · cases h
  obtain ⟨rfl, rfl⟩ := query_ok.mp hquery
  have hsame : t = u := by
    rcases bind_error.mp h with h | ⟨_, _, hattempt, h⟩
    · exact (ReadOnly.attempt _).2 _ _ _ h
    · obtain ⟨-, rfl⟩ := attempt_ok.mp hattempt
      exact (ReadOnly.orError _ _).2 _ _ _ h
  subst hsame
  refine .inr ⟨found, persona, hget, hpersona, htransitioned, fun route' hagain => ?_⟩
  rw [hagain] at h
  cases h

theorem compareAndSetVerifiedTransition_error (hcodes : codes.Sound) (hs : PeerInv codes s)
    (hdid : Text.startsWith verified "did:" = true) (hverified : Text.trim verified = verified)
    (h : (compareAndSetVerifiedTransition codes owner conversation expected verified now).run s =
      .error e t) : t = s := by
  rcases compareAndSetVerifiedTransition_error_cases hcodes hs.toPeerBase h with
    hsame | ⟨route, persona, hget, hpersona, htransitioned, hnone⟩
  · exact hsame
  · -- After the commit the route is found again, so nothing can fail.
    obtain ⟨route', hagain⟩ := htransitioned.getRoute hdid hverified hget hpersona
    exact absurd hagain (hnone route')

end Transition

/-! ## Runs -/

inductive PeerCall where
  | project (owner ownerDid : String) (lookup : HandleLookup) (home : Option String)
      (now : String)
  | transition (owner conversation expected verified now : String)

namespace PeerCall

def perform (context : PeerContext κ) : PeerCall → PeerM κ Unit
  | project owner ownerDid lookup home now => do
      let _conversation ← projectVerifiedHandle context owner ownerDid lookup home now
  | transition owner conversation expected verified now => do
      let _route ← compareAndSetVerifiedTransition context.toPeerCodes owner conversation expected
        verified now

def after (context : PeerContext κ) (call : PeerCall) (db : PeerDb κ) : PeerDb κ :=
  match (call.perform context).run db with
  | .ok _ db' => db'
  | .error _ db' => db'

def fails (context : PeerContext κ) (call : PeerCall) (db : PeerDb κ) : Bool :=
  match (call.perform context).run db with
  | .ok _ _ => false
  | .error _ _ => true

def isProject : PeerCall → Bool
  | project _ _ _ _ _ => true
  | transition _ _ _ _ _ => false

def Verified : PeerCall → Prop
  | project _ _ _ _ _ => True
  | transition _ _ _ verified _ =>
    Text.trim verified = verified ∧ Text.startsWith verified "did:" = true

instance : DecidablePred Verified := fun call => by
  cases call <;> unfold Verified <;> infer_instance

/-- The call repairs a foreign Persona, from `old` to `new`. -/
def Repairs (codes : PeerCodes) (call : PeerCall) (db : PeerDb κ) (owner old new : String) :
    Prop :=
  match call with
  | project owner' _ lookup home _ => Text.trim owner' = owner ∧
      (∃ conversation, prepareRepair codes db.others owner' lookup home =
        .ok (some { personaId := old, conversationId := conversation })) ∧
      ∃ persona, lookup.peerPersona codes = .ok persona ∧ persona.peerPersonaId = new
  | transition _ _ _ _ _ => False

end PeerCall

/-- `did` is a current DID of the Persona. -/
def PeerDb.IsCurrent (db : PeerDb κ) (owner persona did : String) : Prop :=
  ∃ row ∈ db.others.identifiers, row.isCurrentDidOf owner persona = true ∧ row.value = did

structure PeerDb.Consistent (db : PeerDb κ) : Prop where
  onePersona : ∀ a ∈ db.others.identifiers, ∀ b ∈ db.others.identifiers,
    a.key = b.key → a.peerPersonaId = b.peerPersonaId
  route : ∀ row ∈ db.others.routes, ∀ persona, row.peerPersonaId = some persona →
    ∀ did, db.IsCurrent row.ownerIdentityId persona did ↔ did = row.currentDid
  aliasTarget : ∀ a ∈ db.others.directory.aliases,
    db.others.directory.Registered a.ownerIdentityId a.canonicalConversationId ∧
    ∀ b ∈ db.others.directory.aliases, b.ownerIdentityId = a.ownerIdentityId →
      b.aliasConversationId ≠ a.canonicalConversationId

structure PeerCall.Advances (context : PeerContext κ) (call : PeerCall) (s t : PeerDb κ) :
    Prop where
  unchanged : call.fails context s = true → t = s
  identifiers : ∀ a ∈ s.others.identifiers, ∃ b ∈ t.others.identifiers, b.key = a.key ∧
    (b.peerPersonaId = a.peerPersonaId ∨
      call.Repairs context.toPeerCodes s a.ownerIdentityId a.peerPersonaId b.peerPersonaId)
  generation : ∀ owner persona g, s.others.generation? owner persona = some g →
    ∃ g', t.others.generation? owner persona = some g' ∧ Decimal.value g ≤ Decimal.value g'
  did : call.isProject = true → ∀ owner persona d d', s.IsCurrent owner persona d →
    t.IsCurrent owner persona d' → d ≠ d' →
    s.others.generation? owner persona = none ∨
      ∃ g g', s.others.generation? owner persona = some g ∧
        t.others.generation? owner persona = some g' ∧ Decimal.value g < Decimal.value g'

theorem PeerInv.consistent (h : PeerInv codes s) : s.Consistent where
  onePersona := by
    intro a ha b hb hkey
    rw [h.unique.eq_of_key_eq ha hb hkey]
  route := by
    intro row hrow persona hpersona did
    obtain ⟨identifier, hidentifier, hcurrent, hvalue⟩ := h.routes row hrow persona hpersona
    constructor
    · rintro ⟨other, hother, hotherCurrent, rfl⟩
      rw [← hvalue]
      exact h.current _ _ other hother identifier hidentifier hotherCurrent hcurrent
    · rintro rfl
      exact ⟨identifier, hidentifier, hcurrent, hvalue⟩
  aliasTarget := fun a ha => ⟨h.aliases.registered a ha, fun b hb => h.aliases.flat a ha b hb⟩

theorem PeerCall.Advances.refl (call : PeerCall) (h : PeerInv codes s) :
    call.Advances context s s where
  unchanged := fun _ => rfl
  identifiers := fun a ha => ⟨a, ha, rfl, .inl rfl⟩
  generation := fun _ _ g hg => ⟨g, hg, le_rfl⟩
  did := by
    rintro - owner persona d d' ⟨a, ha, hca, rfl⟩ ⟨b, hb, hcb, rfl⟩ hne
    exact absurd (h.current owner persona a ha b hb hca hcb) hne

theorem replayForPersona_empty (hbacklog : s.backlog = [])
    (h : (replayForPersona context owner persona).run s = .ok v t) : t = s := by
  simp only [replayForPersona, bind_ok, query_ok] at h
  obtain ⟨rows, _, ⟨rfl, rfl⟩, h⟩ := h
  have hnone : pendingOf s owner persona = [] := by
    simp [pendingOf, pendingRows, hbacklog]
  rw [hnone] at h
  exact (pure_ok.mp h).2.symm

theorem projectVerifiedHandle_cases
    (hcodes : context.toPeerCodes.Sound)
    (hs : PeerBase context.toPeerCodes s)
    (h : (projectVerifiedHandle context owner ownerDid lookup home now).run s =
      .ok conversation t) :
    ∃ persona legacy generation u, lookup.peerPersona context.toPeerCodes = .ok persona ∧
      persona.Canonical context.toPeerCodes ∧
      prepareRepair context.toPeerCodes s.others owner lookup home = .ok legacy ∧
      s.others.validateProjectionGeneration owner persona.peerPersonaId lookup.did
        lookup.bindingGeneration = .ok generation ∧
      (∀ old ∈ legacy, Text.trim owner = owner) ∧
      PeerProjected context.toPeerCodes (Text.trim owner) (Text.trim lookup.did) persona generation
        legacy s u ∧
      (replayForPersona context owner persona.peerPersonaId).run u = .ok () t := by
  simp only [projectVerifiedHandle, bind_ok, attempt_ok] at h
  obtain ⟨persona, _, ⟨hpersona, rfl⟩, h⟩ := h
  have hcanonical := PeerPersona.canonical_of_ok hcodes hpersona
  have hlegacy : ∀ old, prepareRepair context.toPeerCodes s.others owner lookup home =
      .ok (some old) →
      Text.trim owner = owner ∧ Text.trim old.conversationId = old.conversationId := by
    intro old hprepared
    obtain ⟨⟨row, hrow, hrowOwner⟩, q, -, -, hconversation⟩ := prepareRepair_ok hcodes hprepared
    refine ⟨?_, ?_⟩
    · rw [← hrowOwner]
      exact (hs.trimmed row hrow).1
    · rw [← hconversation]
      exact trim_peerScopeConversationId hcodes _ _
  rcases immediate_ok.mp h with hbody | ⟨-, u, hbody⟩
  · simp only [bind_ok, pure_ok] at hbody
    obtain ⟨c, s₁, hproject, _, s₂, hreplay, -, rfl⟩ := hbody
    obtain ⟨legacy, generation, hprepared, hgeneration, -, hprojected⟩ :=
      projectPersona_ok hcodes hcanonical hs.unique hlegacy hproject
    refine ⟨persona, legacy, generation, s₁, hpersona, hcanonical, hprepared, hgeneration, ?_,
      hprojected, hreplay⟩
    intro old hold
    obtain rfl : legacy = some old := hold
    exact (hlegacy old hprepared).1
  · simp only [bind_ok, pure_ok] at hbody
    obtain ⟨_, _, -, _, _, -, hend, -⟩ := hbody
    cases hend

theorem projectVerifiedHandle_error
    (h : (projectVerifiedHandle context owner ownerDid lookup home now).run s = .error e t) :
    t = s := by
  unfold projectVerifiedHandle at h
  rcases bind_error.mp h with h | ⟨persona, _, hattempt, h⟩
  · exact (ReadOnly.attempt _).2 _ _ _ h
  · obtain ⟨-, rfl⟩ := attempt_ok.mp hattempt
    exact immediate_error h

section Advances

variable {owner ownerDid now : String} {lookup : HandleLookup} {home : Option String}
  {persona : PeerPersona} {legacy : Option LegacyPersona} {generation : Option String}

theorem PeerProjected.identifiers_stay
    (h : PeerProjected codes owner ownerDid persona generation legacy s t)
    {a : IdentifierRow} (ha : a ∈ s.others.identifiers) :
    ∃ b ∈ t.others.identifiers, b.key = a.key ∧
      (b.peerPersonaId = a.peerPersonaId ∨ ∃ old ∈ legacy, a.ownerIdentityId = owner ∧
        a.peerPersonaId = old.personaId ∧ b.peerPersonaId = persona.peerPersonaId) := by
  have hmoved : ∃ b ∈ (legacy.elim s.others.identifiers fun old =>
      moveIdentifiers owner old.personaId persona.peerPersonaId s.others.identifiers),
      b.key = a.key ∧ (b.peerPersonaId = a.peerPersonaId ∨ ∃ old ∈ legacy,
        a.ownerIdentityId = owner ∧ a.peerPersonaId = old.personaId ∧
        b.peerPersonaId = persona.peerPersonaId) := by
    cases legacy with
    | none => exact ⟨a, ha, rfl, .inl rfl⟩
    | some old =>
      by_cases hof : a.isOf owner old.personaId = true
      · refine ⟨_, Rows.mem_updateWhere_of_pos ha hof, rfl, .inr ⟨old, rfl, ?_⟩⟩
        rw [IdentifierRow.isOf_iff] at hof
        exact ⟨hof.1, hof.2, rfl⟩
      · exact ⟨a, Rows.mem_updateWhere_of_not ha (Bool.eq_false_iff.mpr hof), rfl, .inl rfl⟩
  obtain ⟨b, hb, hkey, hcases⟩ := hmoved
  obtain ⟨c, hc, hkey', hpersona⟩ := h.identifiers.stays b hb
  refine ⟨c, hc, hkey'.trans hkey, ?_⟩
  rw [hpersona]
  exact hcases

theorem PeerProjected.generation_ok
    (h : PeerProjected codes (Text.trim owner) ownerDid persona generation legacy s t)
    (hpersona : Text.trim persona.peerPersonaId = persona.peerPersonaId)
    (hvalid : s.others.validateProjectionGeneration owner persona.peerPersonaId lookup.did
      lookup.bindingGeneration = .ok generation) {g : String}
    (hg : s.others.generation? (Text.trim owner) persona.peerPersonaId = some g) :
    ∃ g', t.others.generation? (Text.trim owner) persona.peerPersonaId = some g' ∧
      Decimal.value g ≤ Decimal.value g' ∧
      ((∃ d, s.others.currentDid? (Text.trim owner) persona.peerPersonaId = some d ∧
        d ≠ lookup.did) → Decimal.value g < Decimal.value g') := by
  obtain ⟨hgeneration, hcheck⟩ := validateProjectionGeneration_ok hpersona hvalid
  obtain ⟨g', hor, hle, hlt⟩ := checkGeneration_ok hcheck hg
  refine ⟨g', ?_, hle, hlt⟩
  rw [h.generation, hgeneration, hor]
  rfl

theorem PeerInv.advances_project (hcodes : context.toPeerCodes.Sound)
    (hs : PeerInv context.toPeerCodes s) {conversation : String}
    (h : (projectVerifiedHandle context owner ownerDid lookup home now).run s =
      .ok conversation t)
    (hok : (PeerCall.project owner ownerDid lookup home now).fails context s = false) :
    PeerInv context.toPeerCodes t ∧
      (PeerCall.project owner ownerDid lookup home now).Advances context s t := by
  obtain ⟨persona, legacy, generation, u, hpersona, hcanonical, hprepared, hvalid, howner,
    hprojected, hreplay⟩ := projectVerifiedHandle_cases hcodes hs.toPeerBase h
  obtain rfl := replayForPersona_empty (by rw [hprojected.backlog, hs.backlog]) hreplay
  have htrim := hcanonical.trim_id hcodes
  have ht : PeerInv context.toPeerCodes t := by
    refine hs.project hcodes hcanonical (fun old hold => ?_) hprojected
    obtain rfl : legacy = some old := hold
    exact (prepareRepair_ok hcodes hprepared).2
  refine ⟨ht, by simp [hok], ?_, ?_, ?_⟩
  · intro a ha
    obtain ⟨b, hb, hkey, hsame | ⟨old, hold, hown, hold', hnew⟩⟩ := hprojected.identifiers_stay ha
    · exact ⟨b, hb, hkey, .inl hsame⟩
    · obtain rfl : legacy = some old := hold
      refine ⟨b, hb, hkey, .inr ⟨hown.symm, ⟨old.conversationId, ?_⟩, persona, hpersona,
        hnew.symm⟩⟩
      rw [hold']
      exact hprepared
  · intro o p g hg
    by_cases hkey : o = Text.trim owner ∧ p = persona.peerPersonaId
    · obtain ⟨rfl, rfl⟩ := hkey
      obtain ⟨g', hg', hle, -⟩ := hprojected.generation_ok htrim hvalid hg
      exact ⟨g', hg', hle⟩
    · refine ⟨g, ?_, le_rfl⟩
      unfold PeerTables.generation? at hg ⊢
      rw [hprojected.personas o p hkey, hg]
  · rintro - o p d d' ⟨a, ha, hca, rfl⟩ ⟨b, hb, hcb, rfl⟩ hne
    by_cases hkey : o = Text.trim owner ∧ p = persona.peerPersonaId
    · obtain ⟨rfl, rfl⟩ := hkey
      cases hg : s.others.generation? (Text.trim owner) persona.peerPersonaId with
      | none => exact .inl rfl
      | some g =>
        obtain ⟨g', hg', -, hlt⟩ := hprojected.generation_ok htrim hvalid hg
        refine .inr ⟨g, g', rfl, hg', hlt ⟨a.value, ?_, fun heq => hne ?_⟩⟩
        · exact currentDid?_eq_some ha hca fun other hother hcother =>
            hs.current _ _ other hother a ha hcother hca
        · have hvalue := hprojected.identifiers.current
            (fun row hrow => (trimmed_moved hs.trimmed row hrow).2) b hb hcb
          rw [hvalue, ← heq]
          exact ((hs.trimmed a ha).2).symm
    · -- The other Personas keep their current DID.
      have hof : b.isOf (Text.trim owner) persona.peerPersonaId = false := by
        rw [IdentifierRow.isCurrentDidOf_iff] at hcb
        rw [Bool.eq_false_iff, ne_eq, IdentifierRow.isOf_iff, hcb.1, hcb.2.1]
        exact hkey
      have hb' := ((hprojected.mem_iff hof).mp hb).1
      exact absurd (hs.current o p a ha b hb' hca hcb) hne

theorem PeerInv.advances_transition {conversation expected verified : String}
    (hcodes : context.toPeerCodes.Sound) (hs : PeerInv context.toPeerCodes s)
    (hverified : Text.trim verified = verified)
    (h : (compareAndSetVerifiedTransition context.toPeerCodes owner conversation expected
      verified now).run s = .ok route t)
    (hok : (PeerCall.transition owner conversation expected verified now).fails context s = false) :
    PeerInv context.toPeerCodes t ∧
      (PeerCall.transition owner conversation expected verified now).Advances context s t := by
  obtain ⟨persona, htransitioned⟩ := compareAndSetVerifiedTransition_ok hcodes hs.toPeerBase h
  refine ⟨hs.transition hcodes hverified htransitioned, by simp [hok], ?_, ?_, ?_⟩
  · intro a ha
    obtain ⟨new, -, -, -, -, -, retired, hbound, now', rfl⟩ := htransitioned.identifiers
    have hretired : ∃ b ∈ Rows.updateWhere (isPredecessor owner persona expected)
        (fun row => { row with isCurrent := false, lastSeenAt := now' }) s.others.identifiers,
        b.key = a.key ∧ b.peerPersonaId = a.peerPersonaId := by
      by_cases hp : isPredecessor owner persona expected a = true
      · exact ⟨_, Rows.mem_updateWhere_of_pos ha hp, rfl, rfl⟩
      · exact ⟨a, Rows.mem_updateWhere_of_not ha (by simpa using hp), rfl, rfl⟩
    obtain ⟨b, hb, hkey, hpers⟩ := hretired
    obtain ⟨c, hc, hkey', hpers'⟩ := hbound.stays hb
    exact ⟨c, hc, hkey'.trans hkey, .inl (hpers'.trans hpers)⟩
  · intro o p g hg
    refine ⟨g, ?_, le_rfl⟩
    rw [htransitioned.store]
    exact hg
  · intro hproject
    cases hproject

end Advances

theorem PeerInv.step (hcodes : context.toPeerCodes.Sound) (hs : PeerInv context.toPeerCodes s)
    {call : PeerCall} (hcall : call.Verified) :
    PeerInv context.toPeerCodes (call.after context s) ∧
      call.Advances context s (call.after context s) := by
  cases hrun : (call.perform context).run s with
  | error e t =>
    have hsame : t = s := by
      cases call with
      | project owner ownerDid lookup home now =>
        simp only [PeerCall.perform] at hrun
        rcases bind_error.mp hrun with h | ⟨_, _, -, h⟩
        · exact projectVerifiedHandle_error h
        · cases h
      | transition owner conversation expected verified now =>
        simp only [PeerCall.perform] at hrun
        rcases bind_error.mp hrun with h | ⟨_, _, -, h⟩
        · exact compareAndSetVerifiedTransition_error hcodes hs hcall.2 hcall.1 h
        · cases h
    have hafter : call.after context s = s := by
      unfold PeerCall.after
      rw [hrun]
      exact hsame
    rw [hafter]
    exact ⟨hs, .refl call hs⟩
  | ok v t =>
    have hafter : call.after context s = t := by
      unfold PeerCall.after
      rw [hrun]
    have hok : call.fails context s = false := by
      unfold PeerCall.fails
      rw [hrun]
    rw [hafter]
    cases call with
    | project owner ownerDid lookup home now =>
      simp only [PeerCall.perform, bind_ok, pure_ok] at hrun
      obtain ⟨conversation, _, hproject, -, rfl⟩ := hrun
      exact hs.advances_project hcodes hproject hok
    | transition owner conversation expected verified now =>
      simp only [PeerCall.perform, bind_ok, pure_ok] at hrun
      obtain ⟨route, _, htransition, -, rfl⟩ := hrun
      exact hs.advances_transition hcodes hcall.1 htransition hok

structure PeerDb.Empty (db : PeerDb κ) : Prop where
  identifiers : db.others.identifiers = []
  personas : db.others.personas = []
  routes : db.others.routes = []
  registry : db.others.directory.registry = []
  aliases : db.others.directory.aliases = []
  backlog : db.backlog = []

theorem PeerDb.Empty.inv (h : s.Empty) : PeerInv codes s := by
  refine ⟨⟨?_, ?_, ?_⟩, ?_, ?_, ?_, h.backlog⟩
  · rw [h.identifiers]
    exact Rows.UniqueKey.nil _
  · simp [h.identifiers]
  · simp [h.routes]
  · simp [h.identifiers]
  · simp [h.routes]
  · constructor <;> simp [h.aliases]

/--
From an empty store, after any calls whose transitions are given canonical DIDs, the
projection is consistent, and so is what the next call does.
-/
theorem peer_projection_consistent (hcodes : context.toPeerCodes.Sound) (hs : s.Empty)
    {calls : List PeerCall}
    (hrun : Run (fun db call db' => call.Verified ∧ call.after context db = db') s calls t) :
    t.Consistent ∧ ∀ call : PeerCall, call.Verified →
      call.Advances context t (call.after context t) := by
  have ht : PeerInv context.toPeerCodes t := by
    refine hrun.invariant ?_ hs.inv
    rintro u call _ hu ⟨hcall, rfl⟩
    exact (hu.step hcodes hcall).1
  exact ⟨ht.consistent, fun call hcall => (ht.step hcodes hcall).2⟩

/-! ## A peer that changes its DID -/

namespace Sample

def peerCodes : PeerCodes where
  sha256Hex := fun text => "." ++ text ++ "."
  domainToAscii := fun domain => if Text.contains domain '\n' then none else some domain

theorem peerCodes_sound : peerCodes.Sound where
  injective := by
    intro a b h
    have hchars := congrArg String.toList h
    simp only [peerCodes, String.toList_append] at hchars
    exact String.toList_injective (List.append_cancel_left (List.append_cancel_right hchars))
  trimmed := by
    intro text
    apply Text.trim_eq_self
    · intro c hc
      simp only [peerCodes, String.toList_append, String.reduceToList] at hc
      cases hc
      decide
    · intro c hc
      simp only [peerCodes, String.toList_append, String.reduceToList,
        List.getLast?_append, List.getLast?_singleton] at hc
      cases hc
      decide
  nonempty := by
    intro text h
    have hchars := congrArg String.toList h
    simp [peerCodes] at hchars
  oneLine := by
    intro domain ascii h
    simp only [peerCodes] at h
    split at h
    · cases h
    · rename_i hline
      cases h
      simpa [Text.contains] using hline

def peerContext : PeerContext Unit where
  toPeerCodes := peerCodes
  upsertProfile := fun _ _ _ _ => .ok ()
  moveOthers := fun _ _ _ => .ok ()
  derivedConversation := fun _ => ""
  mergedConversation := fun _ _ _ => none
  legacyConversations := fun peers _ _ _ _ => .ok ([], peers.directory)
  settle := fun peers _ _ => .ok peers.directory
  settleReadState := fun _ _ => .ok ()
  nowText := ""

def emptyPeers : PeerDb Unit := { others := { directory := { rest := () } } }

theorem emptyPeers_empty : emptyPeers.Empty := ⟨rfl, rfl, rfl, rfl, rfl, rfl⟩

def bob (did generation : String) : HandleLookup where
  handle := "b.t"
  did := did
  userId := "u"
  domain := some "t"
  status := some "active"
  bindingGeneration := some generation
  profile := none

def bobConversation : String := peerScopeConversationId peerCodes "u" "b.t"

def projectBob (did generation : String) : PeerCall :=
  .project "a" "did:a" (bob did generation) none "1"

def moveBob (expected verified : String) : PeerCall :=
  .transition "a" bobConversation expected verified "2"

def rotations : List PeerCall :=
  [projectBob "did:1" "1", moveBob "did:1" "did:2",
    projectBob "did:3" "2"]

def rotated : PeerDb Unit :=
  rotations.foldl (fun db call => call.after peerContext db) emptyPeers

theorem rotations_run :
    Run (fun db call db' => call.Verified ∧ call.after peerContext db = db') emptyPeers rotations
      rotated :=
  Run.of_foldl (by decide +kernel) emptyPeers

/-- A projection, a transition and a newer projection: the route follows each of them. -/
theorem rotated_consistent :
    rotated.Consistent ∧ rotated.others.routes.map (·.currentDid) = ["did:3"] :=
  ⟨(peer_projection_consistent peerCodes_sound emptyPeers_empty rotations_run).1,
    by decide +kernel⟩

def projectedBob : PeerDb Unit := (projectBob "did:1" "1").after peerContext emptyPeers

/--
A transition to a text that is no DID is committed and then refused: it returns an error and
leaves a route that cannot be read any more.
-/
theorem refused_transition_is_stored :
    (moveBob "did:1" "2").fails peerContext projectedBob = true ∧
      ¬ (moveBob "did:1" "2").Advances peerContext projectedBob
        ((moveBob "did:1" "2").after peerContext projectedBob) := by
  have hstored : (moveBob "did:1" "2").fails peerContext projectedBob = true ∧
      ((moveBob "did:1" "2").after peerContext projectedBob).others.routes ≠
        projectedBob.others.routes := by
    decide +kernel
  refine ⟨hstored.1, fun h => hstored.2 ?_⟩
  exact congrArg (fun db : PeerDb Unit => db.others.routes) (h.unchanged hstored.1)

end Sample
end LocalState
end Awiki
