import Thur.Iscsi.Text
/-!
# Chap — users, algorithms and the check of a response

The users file is read at every login. Disabled entries never reach the authenticator; of two enabled entries with one
name the later one counts. During the grace window of a rotation the previous password is good as well. The digests are
one parameter.
-/
namespace Thur.Iscsi

inductive ChapAlgorithm
  | md5
  | sha1
  | sha256
  | sha3

namespace ChapAlgorithm

def id : ChapAlgorithm → UInt8
  | md5 => 5
  | sha1 => 6
  | sha256 => 7
  | sha3 => 8

end ChapAlgorithm

/-- In the target's own order. -/
def selectAlgorithm (offered : String) (allowed : List ChapAlgorithm) : Option ChapAlgorithm :=
  let offeredIds := (offered.toList.splitOn ',').filterMap fun s => parseU8 (String.ofList (Text.trim s))
  allowed.find? fun a => offeredIds.contains a.id

abbrev Instant := Nat

structure UserEntry where
  username : String
  password : String
  mutualChap : Bool
  partition : Option String
  volumes : Option (List String)
  disabled : Bool
  previousPassword : Option String
  previousExpiresAt : Option Instant

structure IscsiUsersFile where
  targetUsername : Option String
  targetPassword : Option String
  users : List UserEntry

structure ChapUser where
  username : String
  password : String
  mutualChap : Bool
  partition : Option String
  volumes : Option (List String)
  previousPassword : Option String
  previousExpiresAt : Option Instant

def ChapUser.ofEntry (u : UserEntry) : ChapUser :=
  ⟨u.username, u.password, u.mutualChap, u.partition, u.volumes, u.previousPassword, u.previousExpiresAt⟩

def ChapUser.previousPasswordIfInGrace (u : ChapUser) (now : Instant) : Option String :=
  match u.previousPassword, u.previousExpiresAt with
  | some p, some t => if now < t then some p else none
  | _, _ => none

def ChapUser.passwords (u : ChapUser) (now : Instant) : List String :=
  u.password :: (u.previousPasswordIfInGrace now).toList

structure ChapAuthenticator where
  /-- By username, the latest insertion first. -/
  users : List (String × ChapUser)
  targetUsername : Option String
  targetPassword : Option String
  allowedAlgorithms : List ChapAlgorithm

namespace ChapAuthenticator

def defaultAlgorithms : List ChapAlgorithm := [.sha3, .sha256, .sha1, .md5]

def new (users : List ChapUser) (targetUsername targetPassword : Option String) (allowed : List ChapAlgorithm) :
    ChapAuthenticator :=
  ⟨users.foldl (fun m u => (u.username, u) :: m) [], targetUsername, targetPassword,
    if allowed.isEmpty then defaultAlgorithms else allowed⟩

/-- The callers ask for it only where the method is CHAP. -/
def fromFile (file : IscsiUsersFile) (allowed : List ChapAlgorithm) : ChapAuthenticator :=
  new ((file.users.filter (fun u => !u.disabled)).map ChapUser.ofEntry) file.targetUsername file.targetPassword allowed

def getUser (a : ChapAuthenticator) (username : String) : Option ChapUser := a.users.lookup username

def requiresMutualChap (a : ChapAuthenticator) (username : String) : Bool :=
  ((a.getUser username).map ChapUser.mutualChap).getD false

end ChapAuthenticator

section Digest

variable (digest : ChapAlgorithm → Bytes → Bytes)

def computeChapResponse (algorithm : ChapAlgorithm) (identifier : UInt8) (password : String) (challenge : Bytes) :
    Bytes := digest algorithm (identifier :: (utf8 password ++ challenge))

def ChapAuthenticator.verifyResponse (a : ChapAuthenticator) (now : Instant) (username : String) (challenge : Bytes)
    (identifier : UInt8) (response : Bytes) (algorithm : ChapAlgorithm) : Except String Bool :=
  match a.getUser username with
  | none => .error ("Unknown user: " ++ username)
  | some u =>
    if response = computeChapResponse digest algorithm identifier u.password challenge then .ok true
    else
      match u.previousPasswordIfInGrace now with
      | some previous => .ok (response = computeChapResponse digest algorithm identifier previous challenge)
      | none => .ok false

def ChapAuthenticator.computeTargetResponse (a : ChapAuthenticator) (challenge : Bytes) (identifier : UInt8)
    (algorithm : ChapAlgorithm) : Except String Bytes :=
  match a.targetPassword with
  | none => .error "Target password not configured"
  | some password => .ok (computeChapResponse digest algorithm identifier password challenge)

/-- **An accepted response is the digest of one of the user's passwords that count now.** -/
theorem ChapAuthenticator.verifyResponse_true {a : ChapAuthenticator} {now : Instant} {username : String}
    {challenge response : Bytes} {identifier : UInt8} {algorithm : ChapAlgorithm}
    (h : a.verifyResponse digest now username challenge identifier response algorithm = .ok true) :
    ∃ u, a.getUser username = some u ∧ ∃ password ∈ u.passwords now,
      response = computeChapResponse digest algorithm identifier password challenge := by
  rw [verifyResponse] at h
  cases hu : a.getUser username with
  | none =>
    rw [hu] at h
    cases h
  | some u =>
    rw [hu] at h
    refine ⟨u, rfl, ?_⟩
    by_cases hcur : response = computeChapResponse digest algorithm identifier u.password challenge
    · exact ⟨u.password, List.mem_cons_self, hcur⟩
    simp only [if_neg hcur] at h
    cases hprev : u.previousPasswordIfInGrace now with
    | none =>
      rw [hprev] at h
      cases h
    | some previous =>
      rw [hprev] at h
      refine ⟨previous, ?_, of_decide_eq_true (Except.ok.inj h)⟩
      rw [ChapUser.passwords, hprev]
      exact List.mem_cons_of_mem _ List.mem_cons_self

end Digest

/-! ## Who is in an authenticator -/

theorem mem_of_lookup_foldl {users : List ChapUser} {m : List (String × ChapUser)} {name : String} {u : ChapUser}
    (h : (users.foldl (fun m u => (u.username, u) :: m) m).lookup name = some u) :
    (u ∈ users ∧ u.username = name) ∨ m.lookup name = some u := by
  induction users generalizing m with
  | nil => exact .inr h
  | cons v users ih =>
    rw [List.foldl_cons] at h
    rcases ih h with ⟨hmem, hname⟩ | hm
    · exact .inl ⟨List.mem_cons_of_mem _ hmem, hname⟩
    rw [List.lookup_cons] at hm
    cases hb : name == v.username with
    | true =>
      rw [hb] at hm
      cases hm
      exact .inl ⟨List.mem_cons_self, (eq_of_beq hb).symm⟩
    | false =>
      rw [hb] at hm
      exact .inr hm

/-- **Only enabled entries of the file are users.** -/
theorem ChapAuthenticator.getUser_fromFile {file : IscsiUsersFile} {allowed : List ChapAlgorithm} {name : String}
    {u : ChapUser} (h : (fromFile file allowed).getUser name = some u) :
    ∃ e ∈ file.users, e.disabled = false ∧ e.username = name ∧ u = ChapUser.ofEntry e := by
  rcases mem_of_lookup_foldl h with ⟨hmem, hname⟩ | hnil
  · obtain ⟨e, he, rfl⟩ := List.mem_map.1 hmem
    rw [List.mem_filter] at he
    exact ⟨e, he.1, by simpa using he.2, hname, rfl⟩
  · cases hnil

end Thur.Iscsi
