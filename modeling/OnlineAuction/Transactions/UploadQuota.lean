import OnlineAuction.Library.RowLocks
import OnlineAuction.Market.Records

/-! `_check_upload_quota` of `app/routers/uploads.py`, with the transaction that
`upload_image` and `upload_avatar` run it in, over the two columns of `users`
that it reads and writes. -/

namespace OnlineAuction.Uploads

open RowLocks

structure UploadWindow where
  uploadBytesWindow : Nat
  uploadWindowStart : Option Time
  deriving DecidableEq

def uploadQuotaBytes : Nat := 50 * 1024 * 1024

def uploadQuotaWindow : Time := hours 24

abbrev uploads : Store where
  State := UserId → Option UploadWindow
  Key := UserId
  Time := Time
  Note := Unit
  Error := HTTPException
  keyEq := inferInstance
  hasRow d userId := (d userId).isSome
  admits _ := true
  readable _ _ := true
  observe _ _ d := d

def utcnow : Prog uploads Time := .clock () .pure

/-- The `User` that `get_current_user` loads into the request's session. -/
def getCurrentUser (userId : UserId) : Prog uploads UploadWindow :=
  .read () fun d => Prog.orRaise (d userId) ⟨401, "User not found"⟩

def selectUserForUpdate (userId : UserId) : Prog uploads (Option UploadWindow) :=
  .lock userId () fun d => .pure (d userId)

/-- The window, begun anew when the prior one is over. -/
def UploadWindow.current (user : UploadWindow) (now : Time) : UploadWindow :=
  match user.uploadWindowStart with
  | some start => if uploadQuotaWindow ≤ now - start then ⟨0, some now⟩ else user
  | none => ⟨0, some now⟩

/-- `_check_upload_quota`: the row for the caller to commit. -/
def checkUploadQuota (userId : UserId) (size : Nat) : Prog uploads UploadWindow := do
  let user ← Prog.orRaise (← selectUserForUpdate userId) internalServerError
  let now ← utcnow
  let user := user.current now
  let projected := user.uploadBytesWindow + size
  Prog.raiseIf (uploadQuotaBytes < projected)
    ⟨413, s!"Превышен суточный лимит загрузок ({uploadQuotaBytes / (1024 * 1024)} МБ)."⟩
  pure { user with uploadBytesWindow := projected }

/-- An upload of this many bytes, up to the commit before the file is written. -/
def upload (userId : UserId) (size : Nat) : Prog uploads Unit := do
  let _ ← getCurrentUser userId
  let charged ← checkUploadQuota userId size
  .commit () (fun d => Function.update d userId (some charged)) fun done => do
    let _ ← Prog.orRaise done internalServerError

end OnlineAuction.Uploads
