import Trema.OpenFlow.Protocol

namespace Trema.OpenFlow

structure ErrorCode where
  type : UInt16
  code : UInt16
deriving DecidableEq, Repr

def badVersion : ErrorCode := ⟨1,0⟩
def badType : ErrorCode := ⟨1,1⟩
def badStat : ErrorCode := ⟨1,2⟩
def notPermitted : ErrorCode := ⟨1,5⟩
def badLen : ErrorCode := ⟨1,6⟩
def badActionType : ErrorCode := ⟨2,0⟩
def badActionLen : ErrorCode := ⟨2,1⟩
def badActionOutPort : ErrorCode := ⟨2,4⟩
def badActionArgument : ErrorCode := ⟨2,5⟩
def flowModNotPermitted : ErrorCode := ⟨3,2⟩
def badCommand : ErrorCode := ⟨3,4⟩
def badPort : ErrorCode := ⟨4,0⟩
def badQueuePort : ErrorCode := ⟨5,0⟩
def incompatible : ErrorCode := ⟨0,0⟩

abbrev ErrorMap := List (ValidationError × ErrorCode)

def headerErrors (version : ErrorCode) : ErrorMap :=
  [(.unsupportedVersion,version),(.tooShortMessage,badLen),(.tooLongMessage,badLen),
    (.undefinedType,badType),(.invalidType,badType)]

def actionErrors : ErrorMap :=
  [(.invalidActionType,badActionType),(.tooShortActionOutput,badActionLen),
    (.tooLongActionOutput,badActionLen),(.invalidPortNo,badActionOutPort),
    (.tooShortActionVlanVid,badActionLen),(.tooLongActionVlanVid,badActionLen),
    (.invalidVlanVid,badActionArgument),(.tooShortActionVlanPcp,badActionLen),
    (.tooLongActionVlanPcp,badActionLen),(.invalidVlanPcp,badActionArgument),
    (.tooShortActionStripVlan,badActionLen),(.tooLongActionStripVlan,badActionLen),
    (.tooShortActionDlSrc,badActionLen),(.tooLongActionDlSrc,badActionLen),
    (.tooShortActionDlDst,badActionLen),(.tooLongActionDlDst,badActionLen),
    (.tooShortActionNwSrc,badActionLen),(.tooLongActionNwSrc,badActionLen),
    (.tooShortActionNwDst,badActionLen),(.tooLongActionNwDst,badActionLen),
    (.tooShortActionNwTos,badActionLen),(.tooLongActionNwTos,badActionLen),
    (.tooShortActionTpSrc,badActionLen),(.tooLongActionTpSrc,badActionLen),
    (.tooShortActionTpDst,badActionLen),(.tooLongActionTpDst,badActionLen),
    (.tooShortActionEnqueue,badActionLen),(.tooLongActionEnqueue,badActionLen),
    (.invalidPortNo,badActionOutPort),(.tooShortActionVendor,badActionLen),
    (.invalidLengthActionVendor,badActionLen),(.undefinedActionType,badActionType)]

def errorMaps : OfpType → ErrorMap
  | .hello => headerErrors incompatible
  | .setConfig => headerErrors badVersion ++ [(.invalidSwitchConfig,notPermitted)]
  | .packetIn => headerErrors badVersion ++ [(.invalidPacketInReason,notPermitted)]
  | .flowRemoved => headerErrors badVersion ++
      [(.invalidFlowPriority,notPermitted),(.invalidFlowRemovedReason,notPermitted)]
  | .portStatus => headerErrors badVersion ++ [(.invalidPortStatusReason,notPermitted)]
  | .packetOut => headerErrors badVersion ++ actionErrors
  | .flowMod => headerErrors badVersion ++ actionErrors ++
      [(.invalidWildcards,flowModNotPermitted),(.undefinedFlowModCommand,badCommand),
        (.invalidFlowPriority,flowModNotPermitted),(.invalidFlowModFlags,flowModNotPermitted)]
  | .portMod => headerErrors badVersion ++
      [(.invalidPortNo,badPort),(.invalidPortConfig,notPermitted),(.invalidPortMask,notPermitted),
        (.invalidPortFeatures,notPermitted)]
  | .statsRequest => headerErrors badVersion ++
      [(.unsupportedStatsType,badStat),(.invalidStatsType,badStat),
        (.invalidStatsRequestFlags,notPermitted),(.invalidPortNo,notPermitted),
        (.invalidWildcards,notPermitted),(.invalidVlanVid,notPermitted),
        (.invalidVlanPcp,notPermitted),(.invalidNwTos,notPermitted)]
  | .queueGetConfigRequest => headerErrors badVersion ++ [(.invalidPortNo,badQueuePort)]
  | _ => headerErrors badVersion

-- The search ends at the first entry with the number 0, which is not only the one behind the table.
def ErrorMap.search (maps : ErrorMap) (error : ValidationError) : Option ErrorCode :=
  (maps.takeWhile fun entry => entry.1.errorNo ≠ 0).lookup error

-- The error that is left as it is where the table has none.
def getErrorTypeAndCode (type : UInt8) (error : ValidationError) (default : ErrorCode) : ErrorCode :=
  match OfpType.ofCode type with
  | none => badType
  | some t => ((errorMaps t).search error).getD default

-- What the search returns: nothing where it finds no entry.
def errorEntry (type : UInt8) (error : ValidationError) : Option ErrorCode :=
  match OfpType.ofCode type with
  | none => some badType
  | some t => (errorMaps t).search error

theorem getErrorTypeAndCode_eq (type : UInt8) (error : ValidationError) (default : ErrorCode) :
    getErrorTypeAndCode type error default = (errorEntry type error).getD default := by
  rw [getErrorTypeAndCode,errorEntry]
  cases OfpType.ofCode type <;> rfl

end Trema.OpenFlow
