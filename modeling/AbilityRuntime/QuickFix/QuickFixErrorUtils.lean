import Mathlib.Data.Int.Notation

/-! The result codes of quick fixes. Those used inside are turned into those an
application sees, with a message. -/

namespace AbilityRuntime.QuickFix

inductive QuickFixCode
  | ok | writeParcelFailed | readParcelFailed | sendRequestFailed | copyFilesFailed
  | invalidParam | connectFailed | verifyPermissionFailed | getBundleInfoFailed
  | deployFailed | swichFailed | deleteFailed | notifyLoadPatchFailed
  | notifyReloadPageFailed | registerObserverFailed | appmgrInvalid | bundlemgrInvalid
  | setInfoFailed | processTimeout | notifyUnloadPatchFailed | notSystemApp | deployingTask
  deriving DecidableEq

def QuickFixCode.toInt : QuickFixCode → ℤ
  | ok => 0
  | writeParcelFailed => 1
  | readParcelFailed => 2
  | sendRequestFailed => 3
  | copyFilesFailed => 4
  | invalidParam => 5
  | connectFailed => 6
  | verifyPermissionFailed => 7
  | getBundleInfoFailed => 8
  | deployFailed => 9
  | swichFailed => 10
  | deleteFailed => 11
  | notifyLoadPatchFailed => 12
  | notifyReloadPageFailed => 13
  | registerObserverFailed => 14
  | appmgrInvalid => 15
  | bundlemgrInvalid => 16
  | setInfoFailed => 17
  | processTimeout => 18
  | notifyUnloadPatchFailed => 19
  | notSystemApp => 20
  | deployingTask => 21

inductive ErrCode
  | ok | permissionDenied | notSystemApp | paramInvalid | bundleNameInvalid | hqfInvalid
  | hqfDeployFailed | hqfSwitchFailed | hqfDeleteFailed | loadPatchFailed | unloadPatchFailed
  | internalError | deployingTask

def ErrCode.toInt : ErrCode → ℤ
  | ok => 0
  | permissionDenied => 201
  | notSystemApp => 202
  | paramInvalid => 401
  | bundleNameInvalid => 18500001
  | hqfInvalid => 18500002
  | hqfDeployFailed => 18500003
  | hqfSwitchFailed => 18500004
  | hqfDeleteFailed => 18500005
  | loadPatchFailed => 18500006
  | unloadPatchFailed => 18500007
  | internalError => 18500008
  | deployingTask => 18500009

def internalErrCodeMap : List (QuickFixCode × ErrCode) :=
  [(.ok, .ok), (.writeParcelFailed, .internalError), (.readParcelFailed, .internalError),
    (.sendRequestFailed, .internalError), (.copyFilesFailed, .hqfInvalid),
    (.invalidParam, .paramInvalid), (.connectFailed, .internalError),
    (.verifyPermissionFailed, .permissionDenied), (.notSystemApp, .notSystemApp),
    (.getBundleInfoFailed, .bundleNameInvalid), (.deployFailed, .hqfDeployFailed),
    (.swichFailed, .hqfSwitchFailed), (.deleteFailed, .hqfDeleteFailed),
    (.notifyLoadPatchFailed, .loadPatchFailed), (.notifyReloadPageFailed, .internalError),
    (.registerObserverFailed, .internalError), (.appmgrInvalid, .internalError),
    (.bundlemgrInvalid, .internalError), (.setInfoFailed, .internalError),
    (.processTimeout, .internalError), (.notifyUnloadPatchFailed, .unloadPatchFailed),
    (.deployingTask, .deployingTask)]

def internalErrMsgMap : List (QuickFixCode × String) :=
  [(.writeParcelFailed, "Write parcel failed."), (.readParcelFailed, "Read parcel failed."),
    (.sendRequestFailed, "Send request failed."), (.connectFailed, "Connect failed."),
    (.notifyReloadPageFailed, "Reload page failed."),
    (.registerObserverFailed, "Register observer failed."),
    (.appmgrInvalid, "AppMgr invalid."), (.bundlemgrInvalid, "BundleMgr invalid."),
    (.setInfoFailed, "Set quickfix info failed."), (.processTimeout, "Process timeout.")]

def externalErrMsgMap : List (ErrCode × String) :=
  [(.ok, "Success."),
    (.permissionDenied, "The application does not have permission to call the interface."),
    (.notSystemApp, "The application is not system-app, can not use system-api."),
    (.paramInvalid, "Invalid input parameter."),
    (.bundleNameInvalid, "The specified bundleName is invalid."),
    (.hqfInvalid, "The specified hqf is invalid. Hqf may not exist or inaccessible."),
    (.hqfDeployFailed, "Deploy hqf failed."), (.hqfSwitchFailed, "Switch hqf failed."),
    (.hqfDeleteFailed, "Delete hqf failed."), (.loadPatchFailed, "Load patch failed."),
    (.unloadPatchFailed, "Unload patch failed."), (.internalError, "Internal error."),
    (.deployingTask, "The application has a apply quick fix task that is being processed.")]

def lookupCode {C V : Type*} (toInt : C → ℤ) (table : List (C × V)) (errCode : ℤ) : Option V :=
  (table.find? fun e => toInt e.1 = errCode).map Prod.snd

def getErrorCode (errCode : ℤ) : ℤ :=
  match lookupCode ErrCode.toInt externalErrMsgMap errCode with
  | some _ => errCode
  | none => ((lookupCode QuickFixCode.toInt internalErrCodeMap errCode).getD .internalError).toInt

def getErrorMessage (errCode : ℤ) : String :=
  let errMsg := (lookupCode ErrCode.toInt externalErrMsgMap (getErrorCode errCode)).getD
    "Internal error."
  match lookupCode QuickFixCode.toInt internalErrMsgMap errCode with
  | some msg => errMsg ++ (" " ++ msg)
  | none => errMsg

end AbilityRuntime.QuickFix
