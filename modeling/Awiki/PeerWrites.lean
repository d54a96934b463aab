import Awiki.PeerIdentity

/-!
# What the statements of a projection write

Each function that writes a table of peers is described by the rows that it leaves: a bind
replaces the row of its key by one that is current, an upsert of a route replaces the row
of its conversation, the registry only gains conversations, and an alias is added only if
its target is registered and no alias itself.
-/

namespace Awiki
namespace LocalState

open Tx

variable {κ : Type} {s t : PeerDb κ} {codes : PeerCodes}

variable {v : Unit} {owner verifiedAt : String} {row : IdentifierRow} {persona now : String}
  {old rows : List IdentifierRow} {did conversation ownerDid new : String} {kind : IdentifierKind}
  {entry : AliasRow}

@[simp] theorem onPeers_ok {f : PeerTables κ → PeerTables κ} :
    (onPeers f).run s = .ok v t ↔ { s with others := f s.others } = t := by
  simp [onPeers]

@[simp] theorem onDirectory_ok {f : Directory κ → Directory κ} :
    (onDirectory f).run s = .ok v t ↔
      { s with others := { s.others with directory := f s.others.directory } } = t := by
  simp [onDirectory]

/-! ## Personas -/

theorem upsertPersona_ok {persona : PeerPersona} {generation : Option String}
    (h : (upsertPersona owner persona generation verifiedAt).run s = .ok v t) :
    ∃ rows, t = { s with others := { s.others with personas := rows } } ∧
      (rows.find? (·.isPersona (Text.trim owner) persona.peerPersonaId)).bind
          (·.bindingGeneration) =
        generation.or (s.others.generation? (Text.trim owner) persona.peerPersonaId) ∧
      ∀ o p, ¬ (o = Text.trim owner ∧ p = persona.peerPersonaId) →
        rows.find? (·.isPersona o p) = s.others.personas.find? (·.isPersona o p) := by
  simp only [upsertPersona, bind_ok, attempt_ok, query_ok, refuseIf_ok, onPeers_ok] at h
  obtain ⟨_, _, ⟨-, rfl⟩, _, _, ⟨-, rfl⟩, _, _, ⟨-, rfl⟩, _, _, rfl, stored, _, ⟨rfl, rfl⟩, hsame,
    rfl⟩ := h
  refine ⟨_, rfl, ?_, ?_⟩
  · rw [Rows.find?_upsertWhere_key (by simp [PersonaRow.isPersona])
      (by intro row hrow; split <;> simpa [PersonaRow.isPersona] using hrow)] at hsame ⊢
    unfold PeerTables.generation?
    cases hfind : s.others.personas.find? (·.isPersona (Text.trim owner) persona.peerPersonaId) with
    | none => simp
    | some row =>
      -- A stored Persona with other columns would have been refused.
      simp only [hfind, Option.elim_some, Option.any_some, Bool.not_eq_false'] at hsame
      split at hsame
      · rename_i hcolumns
        simp only [Option.elim_some, Option.bind_some, if_pos hcolumns]
      · rename_i hcolumns
        exact absurd hsame hcolumns
  · intro o p hne
    have hkey : ∀ row : PersonaRow, row.isPersona (Text.trim owner) persona.peerPersonaId = true →
        row.isPersona o p = false := by
      intro row hrow
      simp only [PersonaRow.isPersona, Bool.and_eq_true, beq_iff_eq] at hrow
      simp only [PersonaRow.isPersona, hrow.1, hrow.2, Bool.and_eq_false_iff, beq_eq_false_iff_ne]
      by_cases ho : o = Text.trim owner
      · exact .inr fun hp => hne ⟨ho, hp.symm⟩
      · exact .inl (Ne.symm ho)
    apply Rows.find?_upsertWhere_of_ne hkey
    · exact hkey _ (by simp [PersonaRow.isPersona])
    · intro row hrow
      apply hkey
      split <;> simpa [PersonaRow.isPersona] using hrow

/-! ## Identifiers -/

def IdentifierRow.key (row : IdentifierRow) : String × IdentifierKind × String :=
  (row.ownerIdentityId, row.kind, row.value)

theorem IdentifierRow.isIdentifier_iff {value : String} :
    row.isIdentifier owner kind value = true ↔ row.key = (owner, kind, value) := by
  simp [isIdentifier, key, and_assoc]

@[simp] theorem IdentifierRow.isOf_iff :
    row.isOf owner persona = true ↔
      row.ownerIdentityId = owner ∧ row.peerPersonaId = persona := by
  simp [isOf]

theorem IdentifierRow.isCurrentDidOf_iff :
    row.isCurrentDidOf owner persona = true ↔
      row.ownerIdentityId = owner ∧ row.peerPersonaId = persona ∧ row.kind = .did ∧
        row.isCurrent = true := by
  simp [isCurrentDidOf, isDidOf, and_assoc]

/-- `new` has taken the place of the row of its key, which had the same Persona. -/
structure Bound (new : IdentifierRow) (old rows : List IdentifierRow) : Prop where
  mem : ∀ row, row ∈ rows ↔ row = new ∨ row ∈ old ∧ row.key ≠ new.key
  persona : ∀ row ∈ old, row.key = new.key → row.peerPersonaId = new.peerPersonaId
  unique : Rows.UniqueKey IdentifierRow.key rows

theorem bindIdentifier_ok {value source : String}
    (h : (bindIdentifier owner persona kind value source verifiedAt now).run s = .ok v t)
    (hunique : Rows.UniqueKey IdentifierRow.key s.others.identifiers) :
    ∃ rows, t = { s with others := { s.others with identifiers := rows } } ∧
      Bound
        { ownerIdentityId := Text.trim owner
          peerPersonaId := Text.trim persona
          kind := kind
          value := Text.trim value
          isCurrent := true
          source := Text.trim source
          lastSeenAt := now } s.others.identifiers rows := by
  simp only [bindIdentifier, bind_ok, attempt_ok, query_ok, refuseIf_ok, onPeers_ok] at h
  obtain ⟨_, _, ⟨-, rfl⟩, _, _, ⟨-, rfl⟩, _, _, ⟨-, rfl⟩, _, _, rfl, _, _, ⟨rfl, rfl⟩, _, _,
    ⟨hpersona, rfl⟩, rfl⟩ := h
  set new : IdentifierRow :=
    { ownerIdentityId := Text.trim owner
      peerPersonaId := Text.trim persona
      kind := kind
      value := Text.trim value
      isCurrent := true
      source := Text.trim source
      lastSeenAt := now } with hnew
  set isRow : IdentifierRow → Bool := fun row =>
    row.isIdentifier (Text.trim owner) kind (Text.trim value)
  have hkey : ∀ row : IdentifierRow, isRow row = true ↔ row.key = new.key := by
    intro row
    exact IdentifierRow.isIdentifier_iff
  have hstored : (Rows.upsertWhere isRow new id s.others.identifiers).find? isRow =
      some ((s.others.identifiers.find? isRow).elim new id) :=
    Rows.find?_upsertWhere_key ((hkey new).mpr rfl) (fun _ h => h) _
  dsimp only at hpersona
  rw [hstored] at hpersona
  have hrows : Rows.updateWhere isRow (fun row => { row with
        isCurrent := true
        source := Text.trim source
        lastSeenAt := now })
        (Rows.upsertWhere isRow new id s.others.identifiers) =
      Rows.upsertWhere isRow new (fun row => { row with
        isCurrent := true
        source := Text.trim source
        lastSeenAt := now }) s.others.identifiers := by
    unfold Rows.upsertWhere
    split
    · simp [Rows.updateWhere]
    · rename_i hany
      have hkeep := Rows.updateWhere_of_none (by simpa using hany) (fun row : IdentifierRow =>
        { row with isCurrent := true, source := Text.trim source, lastSeenAt := now })
      unfold Rows.updateWhere at hkeep ⊢
      rw [List.map_append, hkeep]
      simp [hnew]
  refine ⟨_, rfl, ?_⟩
  rw [hrows]
  -- Every row of the key has the Persona, so the update makes it the new row.
  have hsame : ∀ row ∈ s.others.identifiers, row.key = new.key →
      row.peerPersonaId = new.peerPersonaId := by
    intro row hrow hrowKey
    have hfind := hunique.find?_eq_some hrow ((hkey row).mpr hrowKey)
      (fun other _ hother => ((hkey other).mp hother).trans hrowKey.symm)
    simpa [hfind] using hpersona
  have hmerge : ∀ row ∈ s.others.identifiers, row.key = new.key →
      ({ row with isCurrent := true, source := Text.trim source, lastSeenAt := now } :
        IdentifierRow) = new := by
    intro row hrow hrowKey
    have hpers := hsame row hrow hrowKey
    simp only [IdentifierRow.key, Prod.mk.injEq] at hrowKey
    cases row
    simp_all
  refine ⟨?_, hsame, ?_⟩
  · intro row
    constructor
    · intro hrow
      rcases Rows.mem_upsertWhere hrow with h | ⟨h, hno⟩ | ⟨old, hold, hyes, h⟩
      · exact .inl h
      · refine .inr ⟨h, fun hrowKey => ?_⟩
        rw [(hkey row).mpr hrowKey] at hno
        cases hno
      · exact .inl (h ▸ hmerge old hold ((hkey old).mp hyes))
    · rintro (rfl | ⟨hrow, hrowKey⟩)
      · rcases Rows.exists_mem_upsertWhere isRow new _ s.others.identifiers with
          h | ⟨old, hold, hyes, h⟩
        · exact h
        · rwa [hmerge old hold ((hkey old).mp hyes)] at h
      · have hno : isRow row = false := by
          simpa using fun hyes => hrowKey ((hkey row).mp hyes)
        unfold Rows.upsertWhere
        split
        · exact Rows.mem_updateWhere_of_not hrow hno
        · exact List.mem_append_left _ hrow
  · exact hunique.upsertWhere (fun old _ => hkey old) (fun _ => rfl)

structure PersonaBound (owner persona did : String) (old rows : List IdentifierRow) :
    Prop where
  unique : Rows.UniqueKey IdentifierRow.key rows
  trimmed : (∀ row ∈ old, Text.trim row.ownerIdentityId = row.ownerIdentityId ∧
      Text.trim row.value = row.value) →
    ∀ row ∈ rows, Text.trim row.ownerIdentityId = row.ownerIdentityId ∧
      Text.trim row.value = row.value
  bound : ∃ row ∈ rows, row.isCurrentDidOf owner persona = true ∧ row.value = did
  current : (∀ row ∈ old, Text.trim row.value = row.value) →
    ∀ row ∈ rows, row.isCurrentDidOf owner persona = true → row.value = did
  others : ∀ row : IdentifierRow, row.isOf owner persona = false → (row ∈ rows ↔ row ∈ old)
  stays : ∀ row ∈ old, ∃ row' ∈ rows, row'.key = row.key ∧
    row'.peerPersonaId = row.peerPersonaId

theorem Bound.stays {new : IdentifierRow} (h : Bound new old rows) (hrow : row ∈ old) :
    ∃ row' ∈ rows, row'.key = row.key ∧ row'.peerPersonaId = row.peerPersonaId := by
  by_cases hkey : row.key = new.key
  · exact ⟨new, (h.mem new).mpr (.inl rfl), hkey.symm, (h.persona row hrow hkey).symm⟩
  · exact ⟨row, (h.mem row).mpr (.inr ⟨hrow, hkey⟩), rfl, rfl⟩

theorem Bound.mem_of_not {new : IdentifierRow} (h : Bound new old rows)
    (hrow : row.isOf new.ownerIdentityId new.peerPersonaId = false) :
    row ∈ rows ↔ row ∈ old := by
  rw [h.mem]
  constructor
  · rintro (rfl | ⟨hold, -⟩)
    · simp [IdentifierRow.isOf] at hrow
    · exact hold
  · intro hold
    refine .inr ⟨hold, fun hkey => ?_⟩
    have howner : row.ownerIdentityId = new.ownerIdentityId := congrArg Prod.fst hkey
    have hpersona := h.persona row hold hkey
    simp [IdentifierRow.isOf, howner, hpersona] at hrow

/-- `UPDATE peer_identifiers SET is_current = 0` for the other DIDs of a Persona. -/
def retireDids (owner persona did : String) (rows : List IdentifierRow) : List IdentifierRow :=
  Rows.updateWhere (fun row => row.isDidOf owner persona && row.value != did)
    (fun row => { row with isCurrent := false }) rows

theorem mem_retireDids (hrow : row ∈ retireDids owner persona did rows) :
    ∃ old ∈ rows, row.key = old.key ∧ row.peerPersonaId = old.peerPersonaId ∧
      (row = old ∨ row.isCurrent = false) ∧
      (old.isDidOf owner persona = true → old.value ≠ did → row.isCurrent = false) := by
  obtain ⟨old, hold, heq⟩ := Rows.mem_updateWhere.mp hrow
  refine ⟨old, hold, ?_⟩
  by_cases hq : (old.isDidOf owner persona && old.value != did) = true
  · rw [if_pos hq] at heq
    subst heq
    exact ⟨rfl, rfl, .inr rfl, fun _ _ => rfl⟩
  · rw [if_neg hq] at heq
    subst heq
    refine ⟨rfl, rfl, .inl rfl, fun hdid hvalue => absurd ?_ hq⟩
    simp [hdid, hvalue]

theorem retireDids_stays (owner persona did : String) (hrow : row ∈ rows) :
    ∃ row' ∈ retireDids owner persona did rows, row'.key = row.key ∧
      row'.peerPersonaId = row.peerPersonaId := by
  by_cases hq : (row.isDidOf owner persona && row.value != did) = true
  · exact ⟨_, Rows.mem_updateWhere_of_pos hrow hq, rfl, rfl⟩
  · exact ⟨row, Rows.mem_updateWhere_of_not hrow (by simpa using hq), rfl, rfl⟩

theorem mem_retireDids_of_not (hrow : row.isOf owner persona = false) :
    row ∈ retireDids owner persona did rows ↔ row ∈ rows := by
  constructor
  · intro hmem
    obtain ⟨old, hold, heq⟩ := Rows.mem_updateWhere.mp hmem
    by_cases hq : (old.isDidOf owner persona && old.value != did) = true
    · rw [if_pos hq] at heq
      simp only [IdentifierRow.isDidOf, Bool.and_eq_true] at hq
      subst heq
      exact absurd hq.1.1 (by simpa [IdentifierRow.isOf] using hrow)
    · rw [if_neg hq] at heq
      exact heq ▸ hold
  · intro hmem
    exact Rows.mem_updateWhere_of_not hmem (by simp [IdentifierRow.isDidOf, hrow])

theorem PersonaBound.of_binds {handleRow didRow : IdentifierRow}
    {rows₁ : List IdentifierRow} (hhandle : Bound handleRow old rows₁)
    (hdid : Bound didRow (retireDids owner persona did rows₁) rows)
    (howner : Text.trim owner = owner)
    (hhandleRow : handleRow.ownerIdentityId = owner ∧ handleRow.peerPersonaId = persona ∧
      handleRow.kind = .handle ∧ Text.trim handleRow.value = handleRow.value)
    (hdidRow : didRow.ownerIdentityId = owner ∧ didRow.peerPersonaId = persona ∧
      didRow.kind = .did ∧ didRow.value = Text.trim did ∧ didRow.isCurrent = true) :
    PersonaBound owner persona (Text.trim did) old rows where
  unique := hdid.unique
  trimmed := by
    intro htrimmed row hrow
    rcases (hdid.mem row).mp hrow with rfl | ⟨hrow, -⟩
    · simp [hdidRow.1, hdidRow.2.2.2.1, howner]
    · obtain ⟨row₁, hrow₁, hkey, -⟩ := mem_retireDids hrow
      simp only [IdentifierRow.key, Prod.mk.injEq] at hkey
      rw [hkey.1, hkey.2.2]
      rcases (hhandle.mem row₁).mp hrow₁ with rfl | ⟨hold, -⟩
      · rw [hhandleRow.1]
        exact ⟨howner, hhandleRow.2.2.2⟩
      · exact htrimmed row₁ hold
  bound := by
    refine ⟨didRow, (hdid.mem didRow).mpr (.inl rfl), ?_, hdidRow.2.2.2.1⟩
    rw [IdentifierRow.isCurrentDidOf_iff]
    exact ⟨hdidRow.1, hdidRow.2.1, hdidRow.2.2.1, hdidRow.2.2.2.2⟩
  current := by
    intro htrimmed row hrow hcurrent
    rw [IdentifierRow.isCurrentDidOf_iff] at hcurrent
    rcases (hdid.mem row).mp hrow with rfl | ⟨hrow, hkey⟩
    · exact hdidRow.2.2.2.1
    · obtain ⟨row₁, hrow₁, -, -, hsame, hretired⟩ := mem_retireDids hrow
      -- Only a row that was left alone is current, and it has the DID of the projection.
      obtain rfl : row = row₁ := by
        rcases hsame with h | h
        · exact h
        · rw [hcurrent.2.2.2] at h
          cases h
      have hvalue : row.value = did := by
        by_contra hne
        have hdidOf : row.isDidOf owner persona = true := by
          simp [IdentifierRow.isDidOf, hcurrent.1, hcurrent.2.1, hcurrent.2.2.1]
        rw [hretired hdidOf hne] at hcurrent
        exact absurd hcurrent.2.2.2 (by simp)
      rcases (hhandle.mem row).mp hrow₁ with rfl | ⟨hold, -⟩
      · rw [hhandleRow.2.2.1] at hcurrent
        exact absurd hcurrent.2.2.1 (by simp)
      · rw [← hvalue]
        exact (htrimmed row hold).symm
  others := by
    intro row hrow
    have hofDid : row.isOf didRow.ownerIdentityId didRow.peerPersonaId = false := by
      rw [hdidRow.1, hdidRow.2.1]
      exact hrow
    have hofHandle : row.isOf handleRow.ownerIdentityId handleRow.peerPersonaId = false := by
      rw [hhandleRow.1, hhandleRow.2.1]
      exact hrow
    rw [hdid.mem_of_not hofDid, mem_retireDids_of_not hrow, hhandle.mem_of_not hofHandle]
  stays := by
    intro row hrow
    obtain ⟨row₁, hrow₁, hkey₁, hpersona₁⟩ := hhandle.stays hrow
    obtain ⟨row₂, hrow₂, hkey₂, hpersona₂⟩ := retireDids_stays owner persona did hrow₁
    obtain ⟨row₃, hrow₃, hkey₃, hpersona₃⟩ := hdid.stays hrow₂
    exact ⟨row₃, hrow₃, (hkey₃.trans hkey₂).trans hkey₁,
      (hpersona₃.trans hpersona₂).trans hpersona₁⟩

theorem bindPersona_ok {persona : PeerPersona}
    (hpersona : Text.trim persona.peerPersonaId = persona.peerPersonaId)
    (hunique : Rows.UniqueKey IdentifierRow.key s.others.identifiers)
    (h : (bindPersona owner persona did now).run s = .ok v t) :
    ∃ rows, t = { s with others := { s.others with identifiers := rows } } ∧
      PersonaBound (Text.trim owner) persona.peerPersonaId (Text.trim did)
        s.others.identifiers rows := by
  simp only [bindPersona, bind_ok, onPeers_ok] at h
  obtain ⟨_, s₁, hrunHandle, _, s₂, rfl, hrunDid⟩ := h
  obtain ⟨rows₁, rfl, hhandle⟩ := bindIdentifier_ok hrunHandle hunique
  have hunique₂ : Rows.UniqueKey IdentifierRow.key
      (retireDids (Text.trim owner) persona.peerPersonaId did rows₁) :=
    hhandle.unique.updateWhere fun _ => rfl
  obtain ⟨rows, rfl, hdid⟩ := bindIdentifier_ok hrunDid hunique₂
  rw [hpersona] at hhandle hdid
  refine ⟨rows, rfl, PersonaBound.of_binds hhandle hdid (Text.trim_trim owner)
    ⟨Text.trim_trim owner, rfl, rfl, Text.trim_trim _⟩
    ⟨Text.trim_trim owner, rfl, rfl, rfl, rfl⟩⟩

/-! ## Routes -/

theorem upsertRoute_ok {route : RouteRow} (hpersona : route.peerPersonaId.isSome = true)
    (hauthority : route.authorityNamespace.isSome = true)
    (h : (upsertRoute codes route).run s = .ok v t) :
    ∃ rows, t = { s with others := { s.others with routes := rows } } ∧
      ∀ row, row ∈ rows ↔ row = route ∨ row ∈ s.others.routes ∧
        row.isRoute route.ownerIdentityId route.conversationId = false := by
  simp only [upsertRoute, bind_ok, attempt_ok, query_ok, refuseIf_ok, onPeers_ok] at h
  obtain ⟨_, _, ⟨-, rfl⟩, _, _, ⟨-, rfl⟩, _, _, ⟨-, rfl⟩, rfl⟩ := h
  refine ⟨_, rfl, fun row => ?_⟩
  have hmerge : (fun old : RouteRow => { route with
      peerPersonaId := route.peerPersonaId.or old.peerPersonaId
      authorityNamespace := route.authorityNamespace.or old.authorityNamespace }) =
      fun _ => route := by
    funext old
    rw [Option.or_of_isSome hpersona, Option.or_of_isSome hauthority]
  rw [hmerge, Rows.mem_upsertWhere_replace]
  simp [RouteRow.isRoute]

/-! ## Conversations -/

def Directory.Registered (directory : Directory κ) (owner conversation : String) : Prop :=
  ∃ row ∈ directory.registry, row.isConversation owner conversation = true

structure Directory.AliasesOk (directory : Directory κ) : Prop where
  registered : ∀ a ∈ directory.aliases,
    directory.Registered a.ownerIdentityId a.canonicalConversationId
  flat : ∀ a ∈ directory.aliases, ∀ b ∈ directory.aliases,
    b.ownerIdentityId = a.ownerIdentityId → b.aliasConversationId ≠ a.canonicalConversationId
  scope : ∀ a ∈ directory.aliases,
    Text.startsWith a.canonicalConversationId "dm:peer-scope:v1:" = true

/-- The registry has gained conversations, and nothing else of the store has changed. -/
structure Registers (s t : PeerDb κ) : Prop where
  store : t = { s with others := { s.others with
    directory := { s.others.directory with registry := t.others.directory.registry } } }
  grows : ∀ owner conversation, s.others.directory.Registered owner conversation →
    t.others.directory.Registered owner conversation

theorem registered_of_keys {d e : Directory κ}
    (hkeys : ∀ row ∈ d.registry, ∃ row' ∈ e.registry,
      row'.ownerIdentityId = row.ownerIdentityId ∧ row'.conversationId = row.conversationId)
    (h : d.Registered owner conversation) :
    e.Registered owner conversation := by
  obtain ⟨row, hrow, hkey⟩ := h
  obtain ⟨row', hrow', howner, hconversation⟩ := hkeys row hrow
  refine ⟨row', hrow', ?_⟩
  simpa [RegistryRow.isConversation, howner, hconversation] using hkey

theorem ensureDirect_ok {activityAt : String}
    (h : (ensureDirect owner ownerDid conversation activityAt).run s = .ok v t) :
    Registers s t ∧ t.others.directory.Registered owner conversation := by
  simp only [ensureDirect, bind_ok, attempt_ok, query_ok, refuseIf_ok, onDirectory_ok] at h
  obtain ⟨_, _, ⟨-, rfl⟩, persona, _, ⟨-, rfl⟩, _, _, rfl, _, _, ⟨-, rfl⟩, -, rfl⟩ := h
  refine ⟨⟨rfl, fun o c => registered_of_keys fun row hrow => ?_⟩, ?_⟩
  · rcases Rows.mem_upsertWhere_of_mem _ _ _ hrow with hkept | hmerged
    · exact ⟨row, hkept, rfl, rfl⟩
    · exact ⟨_, hmerged, rfl, rfl⟩
  · rcases Rows.exists_mem_upsertWhere _ _ _ s.others.directory.registry with
      hnew | ⟨old, -, hold, hmerged⟩
    · exact ⟨_, hnew, by simp [RegistryRow.isConversation]⟩
    · exact ⟨_, hmerged, hold⟩

theorem markMerged_ok {canonical : String}
    (h : (markMerged owner conversation canonical).run s = .ok v t) : Registers s t := by
  simp only [markMerged, bind_ok, query_ok, refuseIf_ok, onDirectory_ok] at h
  obtain ⟨_, _, ⟨-, rfl⟩, _, _, ⟨-, rfl⟩, rfl⟩ := h
  refine ⟨rfl, fun o c => registered_of_keys fun row hrow => ?_⟩
  by_cases hmerged : row.isConversation (Text.trim owner) (Text.trim conversation) = true
  · exact ⟨_, Rows.mem_updateWhere_of_pos hrow hmerged, rfl, rfl⟩
  · exact ⟨row, Rows.mem_updateWhere_of_not hrow (by simpa using hmerged), rfl, rfl⟩

structure Aliased (entry : AliasRow) (s t : PeerDb κ) : Prop where
  store : t = { s with others := { s.others with
    directory := { s.others.directory with aliases := t.others.directory.aliases } } }
  rows : ∀ row ∈ t.others.directory.aliases, row ∈ s.others.directory.aliases ∨ row = entry
  target : s.others.directory.Registered entry.ownerIdentityId entry.canonicalConversationId
  ne : entry.aliasConversationId ≠ entry.canonicalConversationId
  flat : ∀ row ∈ s.others.directory.aliases, row.ownerIdentityId = entry.ownerIdentityId →
    row.aliasConversationId ≠ entry.canonicalConversationId

theorem insertAlias_ok {source : String}
    (h : (insertAlias entry source verifiedAt).run s = .ok v t)
    (howner : Text.trim entry.ownerIdentityId = entry.ownerIdentityId)
    (halias : Text.trim entry.aliasConversationId = entry.aliasConversationId)
    (hcanonical : Text.trim entry.canonicalConversationId = entry.canonicalConversationId) :
    Aliased { entry with aliasKind := Text.trim entry.aliasKind } s t := by
  simp only [insertAlias, bind_ok, attempt_ok, query_ok, refuseIf_ok, onDirectory_ok, howner,
    halias, hcanonical] at h
  obtain ⟨_, _, ⟨-, rfl⟩, _, _, ⟨hne, rfl⟩, _, _, ⟨rfl, rfl⟩, _, _, ⟨hflat, rfl⟩, _, _,
    ⟨rfl, rfl⟩, _, _, ⟨htarget, rfl⟩, _, _, rfl, _, _, ⟨-, rfl⟩, -, rfl⟩ := h
  refine ⟨rfl, ?_, ?_, by simpa using hne, ?_⟩
  · intro row hrow
    rcases Rows.mem_upsertWhere hrow with h | ⟨h, -⟩ | ⟨old, hold, -, h⟩
    · exact .inr h
    · exact .inl h
    · exact .inl (h ▸ hold)
  · simp only [Bool.not_eq_false', List.any_eq_true, Bool.and_eq_true] at htarget
    obtain ⟨row, hrow, ⟨hkey, -⟩, -⟩ := htarget
    exact ⟨row, hrow, hkey⟩
  · intro row hrow hrowOwner hrowAlias
    simp only [List.any_eq_false, Bool.and_eq_true, beq_iff_eq, not_and] at hflat
    exact hflat row hrow hrowOwner hrowAlias

theorem Aliased.aliasesOk (h : Aliased entry s t) (hs : s.others.directory.AliasesOk)
    (hfresh : ∀ row ∈ s.others.directory.aliases, row.ownerIdentityId = entry.ownerIdentityId →
      row.canonicalConversationId ≠ entry.aliasConversationId)
    (hscope : Text.startsWith entry.canonicalConversationId "dm:peer-scope:v1:" = true) :
    t.others.directory.AliasesOk := by
  have hregistry : t.others.directory.registry = s.others.directory.registry := by rw [h.store]
  constructor
  · intro a ha
    unfold Directory.Registered
    rw [hregistry]
    rcases h.rows a ha with ha | rfl
    · exact hs.registered a ha
    · exact h.target
  · intro a ha b hb hown
    rcases h.rows a ha with ha | rfl <;> rcases h.rows b hb with hb | rfl
    · exact hs.flat a ha b hb hown
    · exact (hfresh a ha hown.symm).symm
    · exact h.flat b hb hown
    · exact h.ne
  · intro a ha
    rcases h.rows a ha with ha | rfl
    · exact hs.scope a ha
    · exact hscope

theorem Registers.aliasesOk (h : Registers s t) (hs : s.others.directory.AliasesOk) :
    t.others.directory.AliasesOk := by
  have haliases : t.others.directory.aliases = s.others.directory.aliases := by rw [h.store]
  constructor
  · intro a ha
    rw [haliases] at ha
    exact h.grows _ _ (hs.registered a ha)
  · rw [haliases]
    exact hs.flat
  · rw [haliases]
    exact hs.scope

theorem startsWith_peerScope (codes : PeerCodes) (userId handle : String) :
    Text.startsWith (peerScopeConversationId codes userId handle) "dm:peer-scope:v1:" = true := by
  simp [Text.startsWith, peerScopeConversationId]

theorem not_startsWith_peerScope (h : Text.startsWith (Text.trim did) "did:" = true) :
    Text.startsWith (directConversationId did) "dm:peer-scope:v1:" = false := by
  unfold directConversationId
  split
  · decide
  · obtain ⟨rest, hrest⟩ := List.isPrefixOf_iff_prefix.mp h
    have hchars : ("dm:" ++ Text.trim did).toList =
        "dm:".toList ++ ("did:".toList ++ rest) := by
      rw [String.toList_append, hrest]
    unfold Text.startsWith
    rw [hchars]
    rfl

/-! ## The repair -/

theorem parseDid_ok {text : String} (h : parseDid text = .ok did) :
    did = Text.trim text ∧ Text.startsWith (Text.trim text) "did:" = true := by
  unfold parseDid at h
  split at h
  · cases h
  · split at h
    · cases h
    · rename_i hdid
      cases h
      exact ⟨rfl, by simpa using hdid⟩

theorem fromVerifiedPersona_ok {persona : PeerPersona} {route : RouteRow}
    (h : RouteRow.fromVerifiedPersona codes owner persona did = .ok route) :
    route = persona.route codes (Text.trim owner) (Text.trim did) ∧
      Text.startsWith (Text.trim did) "did:" = true := by
  unfold RouteRow.fromVerifiedPersona at h
  simp only [except_bind_ok] at h
  obtain ⟨did', hdid, _, hparsed, owner', howner, h⟩ := h
  obtain ⟨rfl, -⟩ := requiredText_ok hdid
  obtain ⟨rfl, -⟩ := requiredText_ok howner
  have hstart := (parseDid_ok hparsed).2
  rw [Text.trim_trim] at hstart
  cases h
  exact ⟨rfl, hstart⟩

structure Repaired (codes : PeerCodes) (owner did : String) (persona : PeerPersona)
    (old : LegacyPersona) (s t : PeerDb κ) : Prop where
  personas : t.others.personas = s.others.personas
  identifiers : t.others.identifiers =
    moveIdentifiers owner old.personaId persona.peerPersonaId s.others.identifiers
  routes : ∀ row ∈ t.others.routes, row.isRoute owner old.conversationId = false ∧
    (row = persona.route codes owner did ∨ row ∈ s.others.routes)
  backlog : t.backlog = s.backlog
  backlogBindings : t.backlogBindings = s.backlogBindings
  aliases : s.others.directory.AliasesOk → t.others.directory.AliasesOk

variable {old : String} {context : PeerContext κ}

theorem flattenAliases_ok {d : Directory κ} (h : d.AliasesOk) (hnew : d.Registered owner new)
    (hflat : ∀ row ∈ d.aliases, row.ownerIdentityId = owner → row.aliasConversationId ≠ new)
    (hscope : Text.startsWith new "dm:peer-scope:v1:" = true) :
    ({ d with aliases := flattenAliases owner old new d.aliases } : Directory κ).AliasesOk := by
  have hrows : ∀ row ∈ flattenAliases owner old new d.aliases, ∃ row' ∈ d.aliases,
      row.ownerIdentityId = row'.ownerIdentityId ∧
      row.aliasConversationId = row'.aliasConversationId ∧
      (row.canonicalConversationId = row'.canonicalConversationId ∨
        row.ownerIdentityId = owner ∧ row.canonicalConversationId = new) := by
    intro row hrow
    obtain ⟨row', hrow', heq⟩ := Rows.mem_updateWhere.mp hrow
    refine ⟨row', hrow', ?_⟩
    split at heq
    · rename_i hold
      simp only [Bool.and_eq_true, beq_iff_eq] at hold
      subst heq
      exact ⟨rfl, rfl, .inr ⟨hold.1, rfl⟩⟩
    · subst heq
      exact ⟨rfl, rfl, .inl rfl⟩
  constructor
  · intro a ha
    obtain ⟨a', ha', howner, -, hcanonical | ⟨hown, hcanonical⟩⟩ := hrows a ha
    · rw [howner, hcanonical]
      exact h.registered a' ha'
    · rw [hown, hcanonical]
      exact hnew
  · intro a ha b hb hown
    obtain ⟨a', ha', haowner, -, hcanonical⟩ := hrows a ha
    obtain ⟨b', hb', hbowner, hbalias, -⟩ := hrows b hb
    rw [hbalias]
    rcases hcanonical with hcanonical | ⟨hown', hcanonical⟩
    · rw [hcanonical]
      exact h.flat a' ha' b' hb' (by rw [← hbowner, hown, haowner])
    · rw [hcanonical]
      exact hflat b' hb' (by rw [← hbowner, hown, hown'])
  · intro a ha
    obtain ⟨a', ha', -, -, hcanonical | ⟨-, hcanonical⟩⟩ := hrows a ha
    · rw [hcanonical]
      exact h.scope a' ha'
    · rw [hcanonical]
      exact hscope

theorem target_of_flattenAliases {rows : List AliasRow} (hne : old ≠ new) :
    ∀ row ∈ flattenAliases owner old new rows, row.ownerIdentityId = owner →
      row.canonicalConversationId ≠ old := by
  intro row hrow hown
  obtain ⟨row', -, heq⟩ := Rows.mem_updateWhere.mp hrow
  split at heq
  · subst heq
    exact hne.symm
  · rename_i hold
    subst heq
    intro hcanonical
    exact hold (by simp [hown, hcanonical])

structure Opened (route : RouteRow) (owner : String) (s t : PeerDb κ) : Prop where
  personas : t.others.personas = s.others.personas
  identifiers : t.others.identifiers = s.others.identifiers
  backlog : t.backlog = s.backlog
  backlogBindings : t.backlogBindings = s.backlogBindings
  aliasRows : t.others.directory.aliases = s.others.directory.aliases
  routes : ∀ row, row ∈ t.others.routes ↔ row = route ∨ row ∈ s.others.routes ∧
    row.isRoute route.ownerIdentityId route.conversationId = false
  registered : t.others.directory.Registered owner route.conversationId
  aliases : s.others.directory.AliasesOk → t.others.directory.AliasesOk

theorem openRoute_ok {persona : PeerPersona} {routeOwner : String}
    (h : (openRoute codes (persona.route codes routeOwner did) owner ownerDid now).run s =
      .ok v t) :
    Opened (persona.route codes routeOwner did) owner s t := by
  simp only [openRoute, bind_ok] at h
  obtain ⟨_, s₁, hupsert, hensure⟩ := h
  obtain ⟨routes, rfl, hroutes⟩ := upsertRoute_ok rfl rfl hupsert
  obtain ⟨hregisters, hregistered⟩ := ensureDirect_ok hensure
  have hstore := hregisters.store
  refine ⟨?_, ?_, ?_, ?_, ?_, ?_, hregistered, hregisters.aliasesOk⟩
  all_goals rw [hstore]
  exact hroutes

theorem aliasRepaired_ok (howner : Text.trim owner = owner) (hold : Text.trim old = old)
    (hnew : Text.trim new = new) (hscope : Text.startsWith new "dm:peer-scope:v1:" = true)
    (hregistered : s.others.directory.Registered owner new)
    (h : (aliasRepaired owner old new verifiedAt).run s = .ok v t) :
    t = { s with others := { s.others with
      directory := { s.others.directory with aliases := t.others.directory.aliases } } } ∧
      (s.others.directory.AliasesOk → t.others.directory.AliasesOk) := by
  simp only [aliasRepaired, bind_ok, onDirectory_ok] at h
  obtain ⟨_, s₁, rfl, hinsert⟩ := h
  have haliased := insertAlias_ok hinsert howner hold hnew
  refine ⟨haliased.store, fun hs => ?_⟩
  refine haliased.aliasesOk ?_ (target_of_flattenAliases haliased.ne) hscope
  refine flattenAliases_ok hs hregistered (fun row hrow hown => ?_) hscope
  -- Flattening changes no alias, only targets.
  obtain ⟨row', hrow', hsame⟩ : ∃ row' ∈ flattenAliases owner old new
      s.others.directory.aliases, row'.ownerIdentityId = row.ownerIdentityId ∧
        row'.aliasConversationId = row.aliasConversationId := by
    by_cases hp : (row.ownerIdentityId == owner && row.canonicalConversationId == old) = true
    · exact ⟨_, Rows.mem_updateWhere_of_pos hrow hp, rfl, rfl⟩
    · exact ⟨row, Rows.mem_updateWhere_of_not hrow (by simpa using hp), rfl, rfl⟩
  rw [← hsame.2]
  exact haliased.flat row' hrow' (hsame.1.trans hown)

structure Moved (move : PersonaMove) (s t : PeerDb κ) : Prop where
  personas : t.others.personas = s.others.personas
  identifiers : t.others.identifiers = s.others.identifiers
  backlog : t.backlog = s.backlog
  backlogBindings : t.backlogBindings = s.backlogBindings
  routes : ∀ row ∈ t.others.routes, row ∈ s.others.routes ∧
    row.isRoute move.owner move.oldConversation = false
  aliases : s.others.directory.AliasesOk → t.others.directory.AliasesOk

theorem moveConversation_ok {move : PersonaMove}
    (h : (moveConversation context move).run s = .ok v t) : Moved move s t := by
  simp only [moveConversation, bind_ok, attempt_ok, query_ok, refuseIf_ok, execute_ok,
    onPeers_ok, onDirectory_ok] at h
  obtain ⟨_, _, ⟨-, rfl⟩, _, _, ⟨-, rfl⟩, _, s₁, hs₁, _, s₂, hs₂, _, s₃, hmerged, _, s₄, hs₄, _,
    _, ⟨-, rfl⟩, _, _, ⟨-, rfl⟩, rfl⟩ := h
  have hmerges := markMerged_ok hmerged
  have hstore := hmerges.store
  subst hs₄
  constructor
  · rw [hstore]
    subst hs₂ hs₁
    rfl
  · rw [hstore]
    subst hs₂ hs₁
    rfl
  · rw [hstore]
    subst hs₂ hs₁
    rfl
  · rw [hstore]
    subst hs₂ hs₁
    rfl
  · intro row hrow
    have hrow := Rows.mem_deleteWhere.mp hrow
    refine ⟨?_, hrow.2⟩
    have hroutes : s₃.others.routes = s.others.routes := by
      rw [hstore]
      subst hs₂ hs₁
      rfl
    rw [← hroutes]
    exact hrow.1
  · intro hs
    have hs₂ok : s₂.others.directory.AliasesOk := by
      subst hs₂ hs₁
      exact ⟨hs.registered, hs.flat, hs.scope⟩
    have hs₃ok := hmerges.aliasesOk hs₂ok
    exact ⟨hs₃ok.registered, hs₃ok.flat, hs₃ok.scope⟩

theorem migrateRepair_ok {lookup : HandleLookup} {persona : PeerPersona} {old : LegacyPersona}
    (hcodes : context.toPeerCodes.Sound) (howner : Text.trim owner = owner)
    (hold : Text.trim old.conversationId = old.conversationId)
    (h : (migrateRepair context owner ownerDid lookup persona old verifiedAt).run s = .ok v t) :
    Repaired context.toPeerCodes owner (Text.trim lookup.did) persona old s t := by
  simp only [migrateRepair, bind_ok, attempt_ok, onPeers_ok] at h
  obtain ⟨route, _, ⟨hroute, rfl⟩, _, s₁, hopen, _, s₂, hs₂, _, s₃, halias, hmove⟩ := h
  obtain ⟨rfl, -⟩ := fromVerifiedPersona_ok hroute
  rw [howner] at hopen
  have hopened := openRoute_ok hopen
  obtain ⟨hstore, haliases⟩ := aliasRepaired_ok howner hold (trim_peerScopeConversationId hcodes _ _)
    (startsWith_peerScope _ _ _) (by subst hs₂; exact hopened.registered) halias
  have hmoved := moveConversation_ok hmove
  constructor
  · rw [hmoved.personas, hstore]
    subst hs₂
    exact hopened.personas
  · rw [hmoved.identifiers, hstore]
    subst hs₂
    rw [← hopened.identifiers]
  · intro row hrow
    obtain ⟨hrow, hother⟩ := hmoved.routes row hrow
    refine ⟨hother, ?_⟩
    rw [hstore] at hrow
    subst hs₂
    rcases (hopened.routes row).mp hrow with h | ⟨h, -⟩
    · exact .inl h
    · exact .inr h
  · rw [hmoved.backlog, hstore]
    subst hs₂
    exact hopened.backlog
  · rw [hmoved.backlogBindings, hstore]
    subst hs₂
    exact hopened.backlogBindings
  · intro hs
    apply hmoved.aliases
    apply haliases
    subst hs₂
    exact hopened.aliases hs

end LocalState
end Awiki
