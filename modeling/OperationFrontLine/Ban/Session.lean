import OperationFrontLine.Library.Calendar
import OperationFrontLine.Library.Run
import OperationFrontLine.Native.Strings

/-!
# Ditching and bans

The columns `Ditch` and `Banned` of a player's row in `administration`, and
what one session of `mycallback` does with them: a rule at connect, another one
at commit, and the text of the ban date in between.  Every database call
succeeds here; `none` stands for an exception of the string functions.
-/

namespace OperationFrontLine.Ban

open OperationFrontLine.Library OperationFrontLine.Native

/-- The row in `administration`; MySQL returns the text it was given. -/
structure Administration where
  ditch : ℤ
  banned : Text
  deriving DecidableEq, Repr

structure Account where
  left : ℤ
  banned : BrokenDownTime
  deriving DecidableEq, Repr

def getBanData (row : Administration) : Option Account := do
  let year ← (substr row.banned 0 4).bind stoll
  let month ← (substr row.banned 5 2).bind stoll
  let day ← (substr row.banned 8 2).bind stoll
  let hour ← (substr row.banned 11 2).bind stoll
  let minute ← (substr row.banned 14 2).bind stoll
  let second ← (substr row.banned 17 2).bind stoll
  return ⟨row.ditch, ⟨year, month, day, hour, minute, second⟩⟩

def banText (time : BrokenDownTime) : Text :=
  setWidth 4 time.year ++ '-' :: (setWidth 2 time.month ++ '-' :: (setWidth 2 time.day ++
    ' ' :: (setWidth 2 time.hour ++ ':' :: (setWidth 2 time.minute ++
      ':' :: setWidth 2 time.second))))

def writeBanData (account : Account) : Administration :=
  ⟨account.left, banText account.banned⟩

/-- One session: the connect and, unless the session ends otherwise, its
Commit with the punish flag.  Times are seconds since 1970. -/
structure Session where
  rejoin : Bool
  connected : ℤ
  commit : Option (Bool × ℤ)
  deriving DecidableEq, Repr

/-- What a session leaves behind: the row after the connect step, the ban flag
of the reply and the row at the end. -/
structure SessionResult where
  connected : Administration
  banFlag : Bool
  committed : Administration
  deriving DecidableEq, Repr

section Mktime

variable (mktime : BrokenDownTime → ℤ)

def isBanned (now : ℤ) (banned : BrokenDownTime) (banHours : ℤ) : Bool :=
  mktime (.utc now) - mktime banned < 3600 * banHours

def rejoinLeft (left : ℤ) (banned : Bool) : ℤ :=
  if left > 0 then
    if left > 4 ∧ banned = false then 0 else left - 1
  else
    0

/-- From `GetBanData` to the reply. -/
def connectStep (now : ℤ) (rejoin : Bool) (row : Administration) :
    Option (Administration × Bool) := do
  let account ← getBanData row
  let banned := isBanned mktime now account.banned 1
  if rejoin then
    let account := { account with left := rejoinLeft account.left banned }
    return (writeBanData account, banned && decide (account.left > 4))
  else
    return (row, banned && decide (account.left > 4))

def punish (now : ℤ) (account : Account) : Account :=
  if account.left > 4 then
    { account with left := 1 }
  else if account.left > 3 then
    ⟨5, .utc now⟩
  else
    { account with left := account.left + 1 }

def commitStep (now : ℤ) (punished : Bool) (row : Administration) : Option Administration :=
  if punished then
    (getBanData row).map fun account => writeBanData (punish now account)
  else
    some row

def runSession (row : Administration) (session : Session) : Option SessionResult := do
  let (connected, banFlag) ← connectStep mktime session.connected session.rejoin row
  match session.commit with
  | none => return ⟨connected, banFlag, connected⟩
  | some (punished, now) =>
      let committed ← commitStep now punished connected
      return ⟨connected, banFlag, committed⟩

def banStep (row : Administration) (session : Session) : Option Administration :=
  (runSession mktime row session).map (·.committed)

end Mktime

end OperationFrontLine.Ban
