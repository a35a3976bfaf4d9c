import WheelForge.Api.BuildTaskService
import WheelForge.Java.Platform
import WheelForge.Python.Exceptions
import WheelForge.Transition.System

/-!
# User administration

`createUser` and `updateUserStatus` of `AdminService` behind the token filter. The filter reads the
account of a request before the transaction of the request starts, the transaction reads the row it
updates, and the update is flushed when it commits; other requests run between these points. The
only guard is that nobody disables their own account, so an administrator remains as long as every
request that disables one is made by an account that is still an active administrator when it
commits (`active_admin_remains`).
-/

set_option autoImplicit false

namespace WheelForge.Api

open WheelForge.Python (bind_ok orRaise orRaise_ok raiseIf raiseIf_ok)
open WheelForge.Relational
open WheelForge.Transition

/-! ## Accounts -/

inductive Role where
  | user
  | admin
deriving DecidableEq, Repr

inductive AccountStatus where
  | active
  | disabled
deriving DecidableEq, Repr

/-- A row of `users`. -/
structure UserAccount where
  id : Uuid
  username : String
  passwordHash : String
  role : Role
  status : AccountStatus
  createdAt : DateTime
deriving DecidableEq, Repr

instance : Keyed UserAccount Uuid := ⟨UserAccount.id⟩

/-- `CurrentUser`, the claims of a token. -/
structure CurrentUser where
  userId : Uuid
  role : Role

/-- `isCurrentActiveAccount` of the token filter. -/
def isCurrentActiveAccount (users : Table UserAccount) (currentUser : CurrentUser) : Bool :=
  (users.find? currentUser.userId).any fun account =>
    account.status = .active && account.role = currentUser.role

/-! ## Requests -/

/-- `CreateUserRequest`; absent JSON values are null. -/
structure CreateUserRequest where
  username : Option String
  role : Option String
  initialPassword : Option String

/-- The libraries behind the service: the collation of `users.username`, the password encoder and
the classes of UTF-16 code units. -/
structure AdminLibraries where
  sameUsername : String → String → Bool
  encode : String → String
  isUpperCase : Nat → Bool
  isLowerCase : Nat → Bool
  isDigit : Nat → Bool
  isLetterOrDigit : Nat → Bool

/-- A full match of `USERNAME`. -/
def usernamePattern (username : String) : Bool :=
  match username.toList with
  | [] => false
  | first :: rest =>
      first.isAlphanum && rest.all (fun c => c.isAlphanum || c = '.' || c = '_' || c = '-') &&
        rest.length ≤ 99

/-- `requireRole`. -/
def requireRole (role : Option String) : Except ApiError Role :=
  match role with
  | some "USER" => .ok .user
  | some "ADMIN" => .ok .admin
  | _ => .error (.badRequest "INVALID_USER_ROLE" "User role must be USER or ADMIN")

/-- What a transaction of `createUser` draws: a UUID, a random password and the time. -/
structure AdminDraws where
  id : Uuid
  generated : String
  now : DateTime

section Requests

variable (lib : AdminLibraries)

/-- `requireStrongPassword`. -/
def strongPassword (password : String) : Bool :=
  12 ≤ Java.length password && Java.length password ≤ 128 &&
    (Java.chars password).any lib.isUpperCase && (Java.chars password).any lib.isLowerCase &&
    (Java.chars password).any lib.isDigit && !(Java.chars password).all lib.isLetterOrDigit

/-- `createUser` up to `saveAndFlush`. -/
def createUser (users : Table UserAccount) (request : CreateUserRequest) (draws : AdminDraws) :
    Except ApiError UserAccount := do
  let username := Java.trim (request.username.getD "")
  raiseIf (usernamePattern username = false)
    (.badRequest "INVALID_USERNAME" "Username must use 1 to 100 safe characters")
  let role ← requireRole request.role
  raiseIf (∃ account ∈ users.rows, lib.sameUsername account.username username = true)
    (.conflict "USERNAME_EXISTS" "Username already exists")
  let initialPassword := request.initialPassword.getD draws.generated
  raiseIf (strongPassword lib initialPassword = false) (.badRequest "INVALID_INITIAL_PASSWORD"
    "Initial password must be 12 to 128 characters with mixed character classes")
  return ⟨draws.id, username, lib.encode initialPassword, role, .active, draws.now⟩

/-- The statuses that `updateUserStatus` accepts. -/
def requestedStatus (status : Option String) : Except ApiError AccountStatus :=
  match status with
  | some "ACTIVE" => .ok .active
  | some "DISABLED" => .ok .disabled
  | _ => .error (.badRequest "INVALID_USER_STATUS" "User status must be ACTIVE or DISABLED")

/-- `updateUserStatus` up to `findById`: the loaded account and the status it is to have. -/
def updateUserStatus (users : Table UserAccount) (administratorId userId : Uuid)
    (status : Option String) : Except ApiError (UserAccount × AccountStatus) := do
  let status ← requestedStatus status
  raiseIf (administratorId = userId ∧ status = .disabled)
    (.conflict "CANNOT_DISABLE_SELF" "An administrator cannot disable their own account")
  let account ← orRaise (users.find? userId) (.notFound "User was not found")
  return (account, status)

/-- `INSERT` of a new account; `none` is a `DataIntegrityViolationException`. -/
def insertAccount (users : Table UserAccount) (account : UserAccount) :
    Option (Table UserAccount) :=
  if ∃ other ∈ users.rows, lib.sameUsername other.username account.username = true then none
  else users.insert? account

/-- The flush of an account with a new status: an account that has it already is not written. -/
def flushStatus (users : Table UserAccount) (account : UserAccount) (status : AccountStatus) :
    Table UserAccount :=
  if account.status = status then users else users.replace { account with status := status }

end Requests

/-! ## Interleavings -/

inductive AdminCall where
  | createUser (request : CreateUserRequest)
  | updateUserStatus (userId : Uuid) (status : Option String)

/-- Where a request is: past the filter and the role check, before the commit of its transaction, or
answered. -/
inductive RequestPhase where
  | authenticated (call : AdminCall)
  | creating (account : UserAccount)
  | updating (account : UserAccount) (status : AccountStatus)
  | answered (answer : Except ApiError UserAccount)
  /-- The transaction was rolled back. -/
  | failed

structure AdminRequest where
  administrator : Uuid
  phase : RequestPhase

/-- The committed accounts and the requests. -/
structure AdminWorld where
  users : Table UserAccount
  requests : Nat → Option AdminRequest

namespace AdminWorld

def setRequest (w : AdminWorld) (request : Nat) (r : AdminRequest) : AdminWorld :=
  { w with requests := Function.update w.requests request (some r) }

@[simp] theorem setRequest_users (w : AdminWorld) (request : Nat) (r : AdminRequest) :
    (w.setRequest request r).users = w.users := rfl

theorem setRequest_requests (w : AdminWorld) (request : Nat) (r : AdminRequest) :
    (w.setRequest request r).requests = Function.update w.requests request (some r) := rfl

end AdminWorld

inductive AdminAction where
  /-- The filter and `@PreAuthorize("hasRole('ADMIN')")`. -/
  | authenticate (request : Nat) (currentUser : CurrentUser) (call : AdminCall)
  /-- The transaction up to its last read. -/
  | load (request : Nat) (draws : AdminDraws)
  | commit (request : Nat)
  | rollback (request : Nat)

section System

variable (lib : AdminLibraries)

/-- The reads of a call. -/
def loadPhase (users : Table UserAccount) (administrator : Uuid) (draws : AdminDraws) :
    AdminCall → RequestPhase
  | .createUser request =>
      match createUser lib users request draws with
      | .ok account => .creating account
      | .error e => .answered (.error e)
  | .updateUserStatus userId status =>
      match updateUserStatus users administrator userId status with
      | .ok (account, status) => .updating account status
      | .error e => .answered (.error e)

/-- The writes of a transaction at its commit, and its answer. -/
def commitPhase (users : Table UserAccount) : RequestPhase → Table UserAccount × RequestPhase
  | .creating account =>
      match insertAccount lib users account with
      | some users => (users, .answered (.ok account))
      | none =>
          (users, .answered (.error (.conflict "USERNAME_EXISTS" "Username already exists")))
  | .updating account status =>
      (flushStatus users account status, .answered (.ok { account with status := status }))
  | phase => (users, phase)

def AdminAction.perform (w : AdminWorld) : AdminAction → AdminWorld
  | .authenticate request currentUser call =>
      if (w.requests request).isNone && isCurrentActiveAccount w.users currentUser &&
          currentUser.role = .admin then
        w.setRequest request ⟨currentUser.userId, .authenticated call⟩
      else w
  | .load request draws =>
      match w.requests request with
      | some ⟨administrator, .authenticated call⟩ =>
          w.setRequest request ⟨administrator, loadPhase lib w.users administrator draws call⟩
      | _ => w
  | .commit request =>
      match w.requests request with
      | some r =>
          { w with users := (commitPhase lib w.users r.phase).1 }.setRequest request
            { r with phase := (commitPhase lib w.users r.phase).2 }
      | none => w
  | .rollback request =>
      match w.requests request with
      | some r => w.setRequest request { r with phase := .failed }
      | none => w

/-- An account that can administer. -/
def UserAccount.ActiveAdmin (account : UserAccount) : Prop :=
  account.role = .admin ∧ account.status = .active

/-- Some account can administer. -/
def HasActiveAdmin (w : AdminWorld) : Prop := ∃ account ∈ w.users, account.ActiveAdmin

/-- Requests in any order, from accounts of which one can administer. -/
def adminSystem : System AdminWorld AdminAction where
  init w := HasActiveAdmin w ∧ w.requests = fun _ => none
  step w a t := t = a.perform lib w

/-- A commit that disables an active administrator is one of an account that still is one. -/
def RequesterActive (w : AdminWorld) : AdminAction → Prop
  | .commit request => ∀ administrator account, w.requests request =
        some ⟨administrator, .updating account .disabled⟩ →
      (∃ target ∈ w.users, target.id = account.id ∧ target.ActiveAdmin) →
        ∃ admin ∈ w.users, admin.id = administrator ∧ admin.ActiveAdmin
  | _ => True

end System

/-! ## An active administrator remains -/

section Invariant

variable {lib : AdminLibraries} {users users' : Table UserAccount} {w : AdminWorld}

/-- What requests rely on: accounts keep their identifiers and roles. -/
def KeepsAccounts (users users' : Table UserAccount) : Prop :=
  ∀ row ∈ users, ∃ row' ∈ users', row'.id = row.id ∧ row'.role = row.role

/-- The row that an update was loaded from. -/
def LoadedFrom (users : Table UserAccount) (account : UserAccount) : Prop :=
  ∃ row ∈ users, row.id = account.id ∧ row.role = account.role

theorem LoadedFrom.keeps {account : UserAccount} (h : LoadedFrom users account)
    (hkeeps : KeepsAccounts users users') : LoadedFrom users' account := by
  obtain ⟨row, hrow, hid, hrole⟩ := h
  obtain ⟨row', hrow', hid', hrole'⟩ := hkeeps row hrow
  exact ⟨row', hrow', hid'.trans hid, hrole'.trans hrole⟩

theorem mem_insertAccount {account : UserAccount} (h : insertAccount lib users account = some users')
    {row : UserAccount} (hrow : row ∈ users) : row ∈ users' := by
  unfold insertAccount at h
  split at h
  · cases h
  · exact (Table.mem_of_insert? h).2 (Or.inl hrow)

/-- A flush changes at most the status of the row it was loaded from. -/
theorem mem_flushStatus {account row : UserAccount} {status : AccountStatus}
    (hloaded : LoadedFrom users account) (hrow : row ∈ users) :
    ∃ row' ∈ flushStatus users account status, row'.id = row.id ∧ row'.role = row.role ∧
      (row'.status = row.status ∨ row.id = account.id ∧ row'.status = status) := by
  unfold flushStatus
  split
  · exact ⟨row, hrow, rfl, rfl, Or.inl rfl⟩
  · by_cases hid : row.id = account.id
    · obtain ⟨other, hother, hotherId, hrole⟩ := hloaded
      obtain rfl : other = row := Table.eq_of_key_eq hother hrow (hotherId.trans hid.symm)
      exact ⟨_, Table.mem_replace.2 (Or.inr ⟨rfl, other, hother, hid⟩), hid.symm, hrole.symm,
        Or.inr ⟨hid, rfl⟩⟩
    · exact ⟨row, Table.mem_replace.2 (Or.inl ⟨hrow, hid⟩), rfl, rfl, Or.inl rfl⟩

theorem flushStatus_keeps {account : UserAccount} {status : AccountStatus}
    (hloaded : LoadedFrom users account) :
    KeepsAccounts users (flushStatus users account status) := by
  intro row hrow
  obtain ⟨row', hrow', hid, hrole, -⟩ := @mem_flushStatus users account row status hloaded hrow
  exact ⟨row', hrow', hid, hrole⟩

/-- The administrators after a flush: it takes the last one away only by disabling it, and then the
requester is another one. -/
theorem flushStatus_active {account : UserAccount} {status : AccountStatus} {administrator : Uuid}
    (hloaded : LoadedFrom users account) (hself : status = .disabled → administrator ≠ account.id)
    (hactive : ∃ row ∈ users, row.ActiveAdmin)
    (hrequester : status = .disabled →
      (∃ target ∈ users, target.id = account.id ∧ target.ActiveAdmin) →
        ∃ admin ∈ users, admin.id = administrator ∧ admin.ActiveAdmin) :
    ∃ row ∈ flushStatus users account status, row.ActiveAdmin := by
  have hkept : ∀ row ∈ users, row.ActiveAdmin → row.id ≠ account.id ∨ status = .active →
      ∃ row ∈ flushStatus users account status, row.ActiveAdmin := by
    rintro row hrow ⟨hrole, hstatus⟩ hother
    obtain ⟨row', hrow', -, hrole', hstatus'⟩ := @mem_flushStatus users account row status hloaded hrow
    refine ⟨row', hrow', hrole'.trans hrole, ?_⟩
    rcases hstatus' with hsame | ⟨hid, hnew⟩
    · exact hsame.trans hstatus
    · rw [hnew]
      exact hother.resolve_left fun hne => hne hid
  obtain ⟨row, hrow, hadmin⟩ := hactive
  cases hcase : status with
  | active =>
      subst hcase
      exact hkept row hrow hadmin (Or.inr rfl)
  | disabled =>
      subst hcase
      by_cases hid : row.id = account.id
      · -- the target is an administrator, so the requester is a different one
        obtain ⟨admin, hmem, hadminId, hadminActive⟩ := hrequester rfl ⟨row, hrow, hid, hadmin⟩
        refine hkept admin hmem hadminActive (Or.inl ?_)
        rw [hadminId]
        exact hself rfl
      · exact hkept row hrow hadmin (Or.inl hid)

/-- The invariant: an administrator is active, and an update in flight was loaded from a row and
does not disable its requester. -/
structure Administered (w : AdminWorld) : Prop where
  active : HasActiveAdmin w
  loaded : ∀ request administrator account status,
    w.requests request = some ⟨administrator, .updating account status⟩ →
      LoadedFrom w.users account ∧ (status = .disabled → administrator ≠ account.id)

/-- An update that was just loaded. -/
theorem updateUserStatus_ok {administrator userId : Uuid} {status : Option String}
    {account : UserAccount} {next : AccountStatus}
    (h : updateUserStatus users administrator userId status = .ok (account, next)) :
    LoadedFrom users account ∧ (next = .disabled → administrator ≠ account.id) := by
  rw [updateUserStatus] at h
  obtain ⟨requested, -, h⟩ := bind_ok.1 h
  obtain ⟨_, hself, h⟩ := bind_ok.1 h
  obtain ⟨found, hfound, h⟩ := bind_ok.1 h
  rw [raiseIf_ok] at hself
  rw [orRaise_ok] at hfound
  cases h
  refine ⟨⟨account, Table.mem_of_find? hfound, rfl, rfl⟩, ?_⟩
  rintro hdisabled rfl
  exact hself ⟨Table.key_of_find? hfound, hdisabled⟩

theorem Administered.of_keeps {requests : Nat → Option AdminRequest} (h : Administered w)
    (hkeeps : KeepsAccounts w.users users') (hactive : ∃ row ∈ users', row.ActiveAdmin)
    (hrequests : ∀ request administrator account status,
      requests request = some ⟨administrator, .updating account status⟩ →
        w.requests request = some ⟨administrator, .updating account status⟩) :
    Administered ⟨users', requests⟩ where
  active := hactive
  loaded := by
    intro request administrator account status hrequest
    obtain ⟨hloaded, hself⟩ := h.loaded _ _ _ _ (hrequests _ _ _ _ hrequest)
    exact ⟨hloaded.keeps hkeeps, hself⟩

/-- A request that moves on to a phase that is no update. -/
theorem setRequest_updating {requests : Nat → Option AdminRequest} {request other : Nat}
    {r : AdminRequest} {administrator : Uuid} {account : UserAccount} {status : AccountStatus}
    (hphase : ∀ account status, r.phase ≠ .updating account status)
    (h : Function.update requests request (some r) other =
      some ⟨administrator, .updating account status⟩) :
    requests other = some ⟨administrator, .updating account status⟩ := by
  by_cases heq : other = request
  · subst heq
    rw [Function.update_self] at h
    cases h
    exact absurd rfl (hphase account status)
  · rwa [Function.update_of_ne heq] at h

theorem Administered.setRequest (h : Administered w) (request : Nat) {r : AdminRequest}
    (hphase : ∀ account status, r.phase ≠ .updating account status) :
    Administered (w.setRequest request r) :=
  h.of_keeps (fun row hrow => ⟨row, hrow, rfl, rfl⟩) h.active
    fun _ _ _ _ => setRequest_updating hphase

theorem loadPhase_updating {administrator : Uuid} {draws : AdminDraws} {call : AdminCall}
    {account : UserAccount} {status : AccountStatus}
    (h : loadPhase lib users administrator draws call = .updating account status) :
    LoadedFrom users account ∧ (status = .disabled → administrator ≠ account.id) := by
  cases call with
  | createUser request =>
      simp only [loadPhase] at h
      split at h <;> cases h
  | updateUserStatus userId requested =>
      simp only [loadPhase] at h
      split at h
      · next hload =>
        cases h
        exact updateUserStatus_ok hload
      · cases h

theorem commitPhase_not_updating {phase : RequestPhase} {account : UserAccount}
    {status : AccountStatus} : (commitPhase lib users phase).2 ≠ .updating account status := by
  cases phase with
  | creating account => simp only [commitPhase]; split <;> simp
  | _ => simp [commitPhase]

/-- A commit keeps the invariant. -/
theorem Administered.commit (h : Administered w) {request : Nat} {r : AdminRequest}
    (hr : w.requests request = some r) (hrequester : RequesterActive w (.commit request)) :
    Administered ((AdminWorld.mk (commitPhase lib w.users r.phase).1 w.requests).setRequest request
      { r with phase := (commitPhase lib w.users r.phase).2 }) := by
  have hmoved : ∀ account status, AdminRequest.phase
      { r with phase := (commitPhase lib w.users r.phase).2 } ≠ .updating account status :=
    fun _ _ => commitPhase_not_updating
  suffices hrows : KeepsAccounts w.users (commitPhase lib w.users r.phase).1 ∧
      ∃ row ∈ (commitPhase lib w.users r.phase).1, row.ActiveAdmin from
    h.of_keeps hrows.1 hrows.2 fun _ _ _ _ => setRequest_updating hmoved
  have hsame : KeepsAccounts w.users w.users ∧ ∃ row ∈ w.users, row.ActiveAdmin :=
    ⟨fun row hrow => ⟨row, hrow, rfl, rfl⟩, h.active⟩
  obtain ⟨administrator, phase⟩ := r
  cases phase with
  | authenticated call => exact hsame
  | answered answer => exact hsame
  | failed => exact hsame
  | creating account =>
      simp only [commitPhase]
      cases hinsert : insertAccount lib w.users account with
      | none => exact hsame
      | some users =>
          -- all rows stay
          obtain ⟨row, hrow, hadmin⟩ := h.active
          exact ⟨fun row hrow => ⟨row, mem_insertAccount hinsert hrow, rfl, rfl⟩,
            row, mem_insertAccount hinsert hrow, hadmin⟩
  | updating account status =>
      obtain ⟨hloaded, hself⟩ := h.loaded _ _ _ _ hr
      refine ⟨flushStatus_keeps hloaded, flushStatus_active hloaded hself h.active ?_⟩
      rintro rfl
      exact hrequester administrator account hr

theorem Administered.step (h : Administered w) {a : AdminAction} (hrequester : RequesterActive w a) :
    Administered (a.perform lib w) := by
  cases a with
  | authenticate request currentUser call =>
      simp only [AdminAction.perform]
      split
      · exact h.setRequest request fun _ _ => nofun
      · exact h
  | load request draws =>
      simp only [AdminAction.perform]
      split
      · next administrator call hr =>
        -- the new phase may be an update, loaded from the committed rows
        refine ⟨h.active, ?_⟩
        intro other administrator' account status hother
        by_cases heq : other = request
        · subst heq
          rw [AdminWorld.setRequest_requests, Function.update_self] at hother
          obtain ⟨rfl, hphase⟩ := AdminRequest.mk.inj (Option.some.inj hother)
          exact loadPhase_updating hphase
        · rw [AdminWorld.setRequest_requests, Function.update_of_ne heq] at hother
          exact h.loaded _ _ _ _ hother
      · exact h
  | commit request =>
      simp only [AdminAction.perform]
      split
      · next r hr => exact h.commit hr hrequester
      · exact h
  | rollback request =>
      simp only [AdminAction.perform]
      split
      · exact h.setRequest request fun _ _ => nofun
      · exact h

/-- As long as every commit that disables an active administrator is one of an account that still is
one, some account can administer. -/
theorem active_admin_remains
    (h : (adminSystem lib).Reachable RequesterActive w) : HasActiveAdmin w := by
  refine (h.invariant (P := Administered) ?_ ?_).active
  · rintro s ⟨hactive, hrequests⟩
    refine ⟨hactive, fun request administrator account status hrequest => ?_⟩
    rw [hrequests] at hrequest
    cases hrequest
  · rintro s a t hs hrequester rfl
    exact hs.step hrequester

end Invariant

/-! ## Two administrators -/

def plainLibraries : AdminLibraries where
  sameUsername := (· == ·)
  encode := id
  isUpperCase := fun c => 65 ≤ c && c ≤ 90
  isLowerCase := fun c => 97 ≤ c && c ≤ 122
  isDigit := fun c => 48 ≤ c && c ≤ 57
  isLetterOrDigit := fun c =>
    (65 ≤ c && c ≤ 90) || (97 ≤ c && c ≤ 122) || (48 ≤ c && c ≤ 57)

def sampleAdmin (id : Uuid) : UserAccount := ⟨id, id, "", .admin, .active, 0⟩

def twoAdmins : AdminWorld where
  users := ⟨[sampleAdmin "a", sampleAdmin "b"], by decide⟩
  requests := fun _ => none

/-- The world after actions. -/
def performAll (lib : AdminLibraries) (w : AdminWorld) (actions : List AdminAction) : AdminWorld :=
  actions.foldl (fun w a => a.perform lib w) w

theorem reachable_performAll {lib : AdminLibraries} {w : AdminWorld}
    (h : (adminSystem lib).Reachable System.Any w) (actions : List AdminAction) :
    (adminSystem lib).Reachable System.Any (performAll lib w actions) := by
  induction actions generalizing w with
  | nil => exact h
  | cons a actions ih => exact ih (h.step trivial rfl)

theorem twoAdmins_init (lib : AdminLibraries) : (adminSystem lib).init twoAdmins :=
  ⟨⟨sampleAdmin "a", List.mem_cons_self, rfl, rfl⟩, rfl⟩

/-- A request that disables the other administrator. -/
def disableOther (request : Nat) (administrator other : Uuid) : AdminAction :=
  .authenticate request ⟨administrator, .admin⟩ (.updateUserStatus other (some "DISABLED"))

/-- One administrator disables the other and remains. -/
theorem active_admin_remains_alone :
    HasActiveAdmin (performAll plainLibraries twoAdmins
      [disableOther 0 "a" "b", .load 0 ⟨"", "", 0⟩, .commit 0]) := by
  have hloaded : (adminSystem plainLibraries).Reachable RequesterActive
      (performAll plainLibraries twoAdmins [disableOther 0 "a" "b", .load 0 ⟨"", "", 0⟩]) :=
    ((System.Reachable.of_init (twoAdmins_init _)).step (a := disableOther 0 "a" "b") trivial
      rfl).step (a := .load 0 ⟨"", "", 0⟩) trivial rfl
  refine active_admin_remains (hloaded.step (a := .commit 0) ?_ rfl)
  intro administrator account hrequest _
  cases hrequest
  exact ⟨sampleAdmin "a", List.mem_cons_self, rfl, rfl, rfl⟩

/-- Two administrators who disable each other, each authenticated before the other one commits,
leave none. -/
theorem admins_lock_out :
    ¬ ∀ w, (adminSystem plainLibraries).Reachable System.Any w → HasActiveAdmin w := by
  intro h
  obtain ⟨row, hrow, hrole, hstatus⟩ := h _ (reachable_performAll
    (System.Reachable.of_init (twoAdmins_init _))
    [disableOther 0 "a" "b", disableOther 1 "b" "a", .load 0 ⟨"", "", 0⟩, .load 1 ⟨"", "", 0⟩,
      .commit 0, .commit 1])
  have hrows : (performAll plainLibraries twoAdmins [disableOther 0 "a" "b",
      disableOther 1 "b" "a", .load 0 ⟨"", "", 0⟩, .load 1 ⟨"", "", 0⟩, .commit 0,
      .commit 1]).users.rows.all (fun row => row.status = .disabled) = true := by decide
  have hdisabled := of_decide_eq_true (List.all_eq_true.1 hrows row hrow)
  rw [hstatus] at hdisabled
  cases hdisabled

end WheelForge.Api
