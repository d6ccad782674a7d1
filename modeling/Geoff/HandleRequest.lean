import Geoff.Paths

-- The static files: lib/src/ServerUtils.cpp and lib/inc/handle_request.h. A std::string
-- is the list of its chars, and so is the content of a file.
namespace Geoff.Http
open Paths

abbrev Text := List Char

structure Build where
  boostMsvc : Bool
  boostBeastVersionString : Text

def mimeTypes : List (String × String) := [
  (".htm","text/html"),
  (".html","text/html"),
  (".php","text/html"),
  (".css","text/css"),
  (".txt","text/plain"),
  (".js","application/javascript"),
  (".json","application/json"),
  (".xml","application/xml"),
  (".swf","application/x-shockwave-flash"),
  (".flv","video/x-flv"),
  (".png","image/png"),
  (".jpe","image/jpeg"),
  (".jpeg","image/jpeg"),
  (".jpg","image/jpeg"),
  (".gif","image/gif"),
  (".bmp","image/bmp"),
  (".ico","image/vnd.microsoft.icon"),
  (".tiff","image/tiff"),
  (".tif","image/tiff"),
  (".svg","image/svg+xml"),
  (".svgz","image/svg+xml")]

def ext (path : Text) : Text :=
  if '.' ∈ path then '.' :: (path.reverse.takeWhile (· ≠ '.')).reverse else []

def iequals (a b : Text) : Bool := a.map Char.toLower == b.map Char.toLower

def mimeType (path : Text) : Text :=
  match mimeTypes.find? fun entry => iequals (ext path) entry.1.toList with
  | some entry => entry.2.toList
  | none => "application/text".toList

def pathSeparator (boostMsvc : Bool) : Char := if boostMsvc then '\\' else '/'

def backslash (c : Char) : Char := if c = '/' then '\\' else c

def pathCat (boostMsvc : Bool) (base path : Text) : Text :=
  if base = [] then path else
  let result := if base.getLast? = some (pathSeparator boostMsvc) then base.dropLast else base
  let result := result ++ path
  if boostMsvc then result.map backslash else result

inductive Verb where
  | get
  | head
  | other
deriving DecidableEq, Repr

-- A parsed request: of its fields the ones the server asks for, through keep_alive() and
-- websocket::is_upgrade().
structure Request where
  method : Verb
  target : Text
  version : Nat
  keepAlive : Bool
  isUpgrade : Bool
deriving DecidableEq, Repr

inductive Status where
  | ok
  | badRequest
  | notFound
  | internalServerError
deriving DecidableEq, Repr

structure Header where
  status : Status
  version : Nat
  server : Text
  contentType : Text
  contentLength : Nat
  keepAlive : Bool
deriving DecidableEq, Repr

structure Response extends Header where
  body : Text
deriving DecidableEq, Repr

-- message::need_eof() of a response with a Content-Length.
def Header.needEof (h : Header) : Bool := !h.keepAlive

def Response.preparePayload (res : Response) : Response := {res with contentLength := res.body.length}

inductive Opened where
  | file (content : Text)
  | noSuchFileOrDirectory
  | error (message : Text)

section Handler
variable (b : Build) (req : Request)

def textResponse (status : Status) (body : Text) : Response :=
  Response.preparePayload {
    status := status
    version := req.version
    server := b.boostBeastVersionString
    contentType := "text/html".toList
    contentLength := 0
    keepAlive := req.keepAlive
    body := body}

def badRequest (why : Text) : Response := textResponse b req .badRequest why

def notFound (target : Text) : Response :=
  textResponse b req .notFound ("The resource '".toList ++ target ++ "' was not found.".toList)

def serverError (what : Text) : Response :=
  textResponse b req .internalServerError ("An error occurred: '".toList ++ what ++ "'".toList)

def cStr (path : Text) : Text := path.takeWhile (· ≠ '\x00')

def dots : Text := ['.','.']

def legal (target : Text) : Bool := decide (target.head? = some '/' ∧ ¬ dots <:+: target)

def filePath (docRoot : Text) : Text :=
  let path := pathCat b.boostMsvc docRoot req.target
  if req.target.getLast? = some '/' then path ++ "index.html".toList else path

def fileResponse (path content : Text) : Response where
  status := .ok
  version := req.version
  server := b.boostBeastVersionString
  contentType := mimeType path
  contentLength := content.length
  keepAlive := req.keepAlive
  body := if req.method = .head then [] else content

-- `files` is what can be opened at the time of the request.
def handleRequest (docRoot : Text) (files : Text → Opened) : Response :=
  if req.method ≠ .get ∧ req.method ≠ .head then badRequest b req "Unknown HTTP-method".toList
  else if legal req.target = false then badRequest b req "Illegal request-target".toList
  else
    match files (cStr (filePath b req docRoot)) with
    | .noSuchFileOrDirectory => notFound b req req.target
    | .error message => serverError b req message
    | .file content => fileResponse b req (filePath b req docRoot) content

end Handler
end Geoff.Http
