import Mathlib.Data.String.Basic
import AbilityRuntime.Library.JsonValue
import AbilityRuntime.Library.Separators

/-! The reserved deep links of `DeepLinkReserveConfig`: loading the configuration, and comparing a
link with the items. -/

namespace AbilityRuntime.DeepLink
open Separators

abbrev Text := List Char

def deepLinkReservedUriName := "deepLinkReservedUri"
def bundleNameName := "bundleName"
def urisName := "uris"
def schemeName := "scheme"
def hostName := "host"
def portName := "port"
def pathName := "path"
def pathStartWithName := "pathStartWith"
def pathRegexName := "pathRegex"
def typeName := "type"
def utdName := "utd"
def portSeparator : Text := [':']
def schemeSeparator : Text := [':', '/', '/']
def pathSeparator : Text := ['/']
def paramSeparator : Char := '?'

structure ReserveUri where
  scheme : Text := []
  host : Text := []
  port : Text := []
  path : Text := []
  pathStartWith : Text := []
  pathRegex : Text := []
  type : Text := []
  utd : Text := []

def textAt (key : String) (jsonUriObject : JsonValue) : Text :=
  ((jsonUriObject.stringAt key).map String.toList).getD []

/-- The path is not copied: an item that has one gets the name of the member. -/
def loadReservedUrilItem (jsonUriObject : JsonValue) (uriList : List ReserveUri) :
    List ReserveUri :=
  uriList ++ [{
    scheme := textAt schemeName jsonUriObject
    host := textAt hostName jsonUriObject
    port := textAt portName jsonUriObject
    path := if (jsonUriObject.stringAt pathName).isSome then pathName.toList else []
    pathStartWith := textAt pathStartWithName jsonUriObject
    pathRegex := textAt pathRegexName jsonUriObject
    type := textAt typeName jsonUriObject
    utd := textAt utdName jsonUriObject }]

def getOptParamUri (linkString : Text) : Text := cutLast paramSeparator linkString

def startsWith (sourceString targetPrefix : Text) : Bool := targetPrefix.isPrefixOf sourceString

def ReserveUri.reservedUriString (reservedUri : ReserveUri) : Text :=
  let uri := reservedUri.scheme ++ schemeSeparator ++ reservedUri.host
  if reservedUri.port ≠ [] then uri ++ portSeparator ++ reservedUri.port else uri

/-- An expression that the regex engine refuses matches nothing. -/
def isUriMatched (regexMatch : Text → Text → Bool) (reservedUri : ReserveUri) (link : Text) :
    Bool :=
  if reservedUri.scheme = [] then false
  else if reservedUri.host = [] then
    link = reservedUri.scheme || startsWith link (reservedUri.scheme ++ portSeparator)
  else
    let optParamUri := getOptParamUri link
    let uri := reservedUri.reservedUriString
    if reservedUri.path = [] ∧ reservedUri.pathStartWith = [] ∧ reservedUri.pathRegex = [] then
      (optParamUri = uri || startsWith optParamUri (uri ++ pathSeparator)) ||
        (reservedUri.port = [] && startsWith optParamUri (uri ++ portSeparator))
    else
      let pathUri := uri ++ pathSeparator
      (reservedUri.path ≠ [] && optParamUri = pathUri ++ reservedUri.path) ||
        (reservedUri.pathStartWith ≠ [] &&
          startsWith optParamUri (pathUri ++ reservedUri.pathStartWith)) ||
        (reservedUri.pathRegex ≠ [] && regexMatch (pathUri ++ reservedUri.pathRegex) optParamUri)

structure DeepLinkReserveConfig where
  deepLinkReserveUris : SortedMap String (List ReserveUri) := .empty

namespace DeepLinkReserveConfig

def loadReservedUris (uris : List JsonValue) : List ReserveUri :=
  uris.foldl (fun uriList jsonUriObject => loadReservedUrilItem jsonUriObject uriList) []

def insert (config : DeepLinkReserveConfig) (bundleName : String) (uriList : List ReserveUri) :
    DeepLinkReserveConfig :=
  { config with deepLinkReserveUris := config.deepLinkReserveUris.emplace bundleName uriList }

/-- The loop over the bundles: at the first wrong entry it gives up and keeps what it has. -/
def loadBundles (config : DeepLinkReserveConfig) : List JsonValue → Bool × DeepLinkReserveConfig
  | [] => (true, config)
  | jsonObject :: rest =>
    match jsonObject.stringAt bundleNameName, jsonObject.arrayAt urisName with
    | some bundleName, some uris =>
      (config.insert bundleName (loadReservedUris uris)).loadBundles rest
    | _, _ => (false, config)

def loadReservedUriList (config : DeepLinkReserveConfig) (object : JsonValue) :
    Bool × DeepLinkReserveConfig :=
  match object.find? deepLinkReservedUriName with
  | none => (false, config)
  | some list => config.loadBundles list.items

def isLinkReserved (regexMatch : Text → Text → Bool) (config : DeepLinkReserveConfig)
    (linkString : Text) : Option String :=
  (config.deepLinkReserveUris.entries.find? fun entry =>
    entry.2.any fun itemUri => isUriMatched regexMatch itemUri linkString).map Prod.fst

end DeepLinkReserveConfig

end AbilityRuntime.DeepLink
