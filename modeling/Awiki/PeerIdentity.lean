import Awiki.PeerProjection

/-!
# Personas are told apart by their digests

The digests of a Persona and of its conversation are taken over texts that join the parts
by line breaks.  Authority and Handle come from the ASCII form of a domain and hold no line
break, so the parts can be read back, and with an injective digest two Personas with the
same conversation are the same.
-/

namespace Awiki
namespace LocalState

/-! ## Digests -/

/--
What is assumed of SHA-256 and of the ASCII form of domains: digests are injective and hold
no outer white space, and a domain is one line.
-/
structure PeerCodes.Sound (codes : PeerCodes) : Prop where
  injective : Function.Injective codes.sha256Hex
  trimmed : ∀ text, Text.trim (codes.sha256Hex text) = codes.sha256Hex text
  nonempty : ∀ text, codes.sha256Hex text ≠ ""
  oneLine : ∀ domain ascii, codes.domainToAscii domain = some ascii → '\n' ∉ ascii.toList

private theorem solid_head_persona :
    "persona:v1:".toList.head?.any (fun c => !Text.isWhiteSpace c) = true := by
  decide +kernel

private theorem solid_head_direct :
    "dm:peer-scope:v1:".toList.head?.any (fun c => !Text.isWhiteSpace c) = true := by
  decide +kernel

/-- A Persona as `from_verified_handle` builds it. -/
structure PeerPersona.Canonical (codes : PeerCodes) (persona : PeerPersona) : Prop where
  id : persona.peerPersonaId = personaId codes persona.authorityNamespace
    persona.authoritySubjectId persona.fullHandle
  domain : ∃ subject, Text.splitOnce '.' persona.fullHandle =
    some (subject, persona.authorityNamespace)
  authority : '\n' ∉ persona.authorityNamespace.toList
  handle : '\n' ∉ persona.fullHandle.toList

private theorem newline_of_toLower {c : Char} (h : c.toLower = '\n') : c = '\n' := by
  unfold Char.toLower at h
  split at h
  · rename_i hupper
    have hval : c.val + 32 = 10 := congrArg Char.val h
    have hval := congrArg UInt32.toNat hval
    have hlow : 65 ≤ c.val.toNat := UInt32.le_iff_toNat_le.mp hupper.1
    have hhigh : c.val.toNat ≤ 90 := UInt32.le_iff_toNat_le.mp hupper.2
    rw [UInt32.toNat_add] at hval
    have htoNat : c.toNat = c.val.toNat := rfl
    simp only [UInt32.reduceToNat, Nat.reducePow] at hval
    omega
  · exact h

theorem newline_not_mem_toAsciiLowercase {s : String} (h : '\n' ∉ s.toList) :
    '\n' ∉ (Text.toAsciiLowercase s).toList := by
  intro hmem
  simp only [Text.toAsciiLowercase, String.toList_ofList, List.mem_map] at hmem
  obtain ⟨c, hc, hlower⟩ := hmem
  exact h (newline_of_toLower hlower ▸ hc)

theorem validateHandleAuthority_ok {handle authority : String}
    (h : validateHandleAuthority handle authority = .ok ()) :
    ∃ subject, Text.splitOnce '.' handle = some (subject, authority) := by
  unfold validateHandleAuthority at h
  split at h
  · cases h
  · rename_i subject domain hsplit
    obtain ⟨hdomain, h⟩ := Tx.except_unless.mp h
    simp only [Bool.or_eq_true, decide_eq_true_eq, bne_iff_ne, not_or, not_not] at hdomain
    exact ⟨subject, by rw [hsplit, hdomain.2]⟩

section Digests

variable {codes : PeerCodes} (hcodes : codes.Sound)
include hcodes

theorem normalizeAuthorityNamespace_oneLine {value authority : String}
    (h : normalizeAuthorityNamespace codes value = .ok authority) :
    '\n' ∉ authority.toList := by
  simp only [normalizeAuthorityNamespace] at h
  split at h
  · cases h
  · split at h
    · cases h
    · rename_i ascii hascii
      split at h
      · cases h
      · cases h
        exact newline_not_mem_toAsciiLowercase (hcodes.oneLine _ _ hascii)

theorem normalizeFullHandle_oneLine {value handle : String}
    (h : normalizeFullHandle codes value = .ok handle) : '\n' ∉ handle.toList := by
  simp only [normalizeFullHandle] at h
  split at h
  · cases h
  · split at h
    · cases h
    · rename_i ascii hascii
      cases h
      exact newline_not_mem_toAsciiLowercase (hcodes.oneLine _ _ hascii)

theorem PeerPersona.canonical_of_ok {domain subject handle : String} {status : Option String}
    {persona : PeerPersona}
    (h : fromVerifiedHandle codes domain subject handle status = .ok persona) :
    persona.Canonical codes := by
  unfold fromVerifiedHandle at h
  simp only [Tx.except_bind_ok] at h
  obtain ⟨authority, hauthority, subject', -, -, -, handle', hhandle, _, hdomain, -, -, h⟩ := h
  cases h
  exact ⟨rfl, validateHandleAuthority_ok hdomain,
    normalizeAuthorityNamespace_oneLine hcodes hauthority,
    normalizeFullHandle_oneLine hcodes hhandle⟩

theorem trim_personaId (authority subject handle : String) :
    Text.trim (personaId codes authority subject handle) =
      personaId codes authority subject handle := by
  unfold personaId
  exact Text.trim_append (hcodes.trimmed _) (hcodes.nonempty _) solid_head_persona

theorem trim_peerScopeConversationId (userId handle : String) :
    Text.trim (peerScopeConversationId codes userId handle) =
      peerScopeConversationId codes userId handle := by
  unfold peerScopeConversationId
  exact Text.trim_append (hcodes.trimmed _) (hcodes.nonempty _) solid_head_direct

end Digests

/-! ## Reading the parts back -/

theorem firstLine_inj {as bs xs ys : List Char} (has : '\n' ∉ as) (hbs : '\n' ∉ bs)
    (h : as ++ '\n' :: xs = bs ++ '\n' :: ys) : as = bs ∧ xs = ys := by
  induction as generalizing bs with
  | nil =>
    cases bs with
    | nil => simpa using h
    | cons b bs =>
      simp only [List.nil_append, List.cons_append, List.cons.injEq] at h
      exact absurd (h.1 ▸ List.mem_cons_self) hbs
  | cons a as ih =>
    cases bs with
    | nil =>
      simp only [List.nil_append, List.cons_append, List.cons.injEq] at h
      exact absurd (h.1 ▸ List.mem_cons_self) has
    | cons b bs =>
      simp only [List.cons_append, List.cons.injEq] at h
      obtain ⟨rfl, hrest⟩ := h
      obtain ⟨rfl, rfl⟩ := ih (fun hmem => has (List.mem_cons_of_mem _ hmem))
        (fun hmem => hbs (List.mem_cons_of_mem _ hmem)) hrest
      exact ⟨rfl, rfl⟩

theorem lastLine_inj {as bs xs ys : List Char} (hxs : '\n' ∉ xs) (hys : '\n' ∉ ys)
    (h : as ++ '\n' :: xs = bs ++ '\n' :: ys) : as = bs ∧ xs = ys := by
  have hrev := congrArg List.reverse h
  simp only [List.reverse_append, List.reverse_cons, List.append_assoc, List.singleton_append]
    at hrev
  obtain ⟨hx, ha⟩ := firstLine_inj (by simpa using hxs) (by simpa using hys) hrev
  exact ⟨List.reverse_injective ha, List.reverse_injective hx⟩

private theorem handleLine_inj {u u' h h' : String} (hh : '\n' ∉ h.toList)
    (hh' : '\n' ∉ h'.toList)
    (heq : u.toList ++ "\nhandle:".toList ++ h.toList =
      u'.toList ++ "\nhandle:".toList ++ h'.toList) : u = u' ∧ h = h' := by
  have hline : "\nhandle:".toList = '\n' :: "handle:".toList := by decide
  rw [hline, List.append_assoc, List.append_assoc] at heq
  have hfree (t : String) (ht : '\n' ∉ t.toList) : '\n' ∉ "handle:".toList ++ t.toList := by
    intro hmem
    rcases List.mem_append.mp hmem with hmem | hmem
    · exact absurd hmem (by decide)
    · exact ht hmem
  obtain ⟨hu, hrest⟩ := lastLine_inj (hfree h hh) (hfree h' hh') heq
  exact ⟨String.toList_injective hu, String.toList_injective (List.append_cancel_left hrest)⟩

theorem personaId_inj {codes : PeerCodes} (hcodes : codes.Sound) {a a' u u' h h' : String}
    (ha : '\n' ∉ a.toList) (ha' : '\n' ∉ a'.toList) (hh : '\n' ∉ h.toList)
    (hh' : '\n' ∉ h'.toList) (heq : personaId codes a u h = personaId codes a' u' h') :
    u = u' ∧ h = h' := by
  unfold personaId at heq
  have hinput := hcodes.injective (String.append_right_inj _ |>.mp heq)
  have hchars := congrArg String.toList hinput
  simp only [String.toList_append, List.append_assoc] at hchars
  have hrest := List.append_cancel_left hchars
  have hline : "\nsubject:".toList = '\n' :: "subject:".toList := by decide
  simp only [hline, List.cons_append] at hrest
  obtain ⟨-, hrest⟩ := firstLine_inj ha ha' hrest
  apply handleLine_inj hh hh'
  simpa using List.append_cancel_left hrest

namespace PeerPersona.Canonical

variable {codes : PeerCodes} {p q : PeerPersona}

theorem conversation_eq (hcodes : codes.Sound) (hp : p.Canonical codes) (hq : q.Canonical codes)
    (h : p.peerPersonaId = q.peerPersonaId) :
    p.directConversationId codes = q.directConversationId codes := by
  rw [hp.id, hq.id] at h
  obtain ⟨hsubject, hhandle⟩ := personaId_inj hcodes hp.authority hq.authority hp.handle
    hq.handle h
  unfold directConversationId
  rw [hsubject, hhandle]

theorem trim_id (hcodes : codes.Sound) (hp : p.Canonical codes) :
    Text.trim p.peerPersonaId = p.peerPersonaId := by
  rw [hp.id]
  exact trim_personaId hcodes _ _ _

end PeerPersona.Canonical
end LocalState
end Awiki
