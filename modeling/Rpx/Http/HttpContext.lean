import Rpx.Core.Bytes

/-!
# Http/HttpContext — the pieces of a response

A response is written piece by piece: each of these lists is the sequence of arguments that a member
function of the context passes to `write()`.
-/

namespace HttpDefinition

/-- The codes and messages of `HTTPLIST`. -/
def httpStatusMessage : List (ℕ × String) :=
  [(100, "Continue"), (101, "Switching Protocols"), (200, "OK"), (201, "Created"),
    (202, "Accepted"), (203, "Non-Authoritative Information"), (204, "No Content"),
    (205, "Reset Content"), (206, "Partial Content"), (300, "Multiple Choices"),
    (301, "Moved Permanently"), (302, "Found"), (303, "See Other"), (304, "Not Modified"),
    (305, "Use Proxy"), (307, "Temporary Redirect"), (308, "Permanent Redirect"),
    (400, "Bad Request"), (401, "Unauthorized"), (402, "Payment Required"), (403, "Forbidden"),
    (404, "Not Found"), (405, "Method Not Allowed"), (406, "Not Acceptable"),
    (407, "Proxy Authentication Required"), (408, "Request Timeout"), (409, "Conflict"),
    (410, "Gone"), (411, "Length Required"), (412, "Precondition Failed"),
    (413, "Request Entity Too Large"), (414, "Request-URI Too Long"),
    (415, "Unsupported Media Type"), (416, "Requested Range Not Satisfiable"),
    (417, "Expectation Failed"), (422, "Unprocessable Entity"), (423, "Locked"),
    (424, "Failed Dependency"), (426, "Upgrade Required"), (428, "Precondition Required"),
    (429, "Too Many Requests"), (431, "Request Header Fields Too Large"),
    (500, "Internal Server Error"), (501, "Not Implemented"), (502, "Bad Gateway"),
    (503, "Service Unavailable"), (504, "Gateway Timeout"), (505, "HTTP Version Not Supported")]

/-- `getMessage(code)`; a code that is not listed has none. -/
def getMessage (code : ℕ) : Option Bytes := (httpStatusMessage.lookup code).map ascii

end HttpDefinition

namespace HttpContext

/-- `startResponse(code, message)`. -/
def startResponse (code : ℕ) (message : Bytes) : List Bytes :=
  [ascii "HTTP/1.1 ", decimal code, ascii " ", message, ascii "\r\n"]

def sendHeader (key value : Bytes) : List Bytes := [key, ascii ": ", value, ascii "\r\n"]

def endHeaders : List Bytes := [ascii "\r\n"]

/-- The page that `sendError` sends. -/
def errorPage (message : Bytes) : Bytes :=
  ascii "<html><title>Error</title>" ++ ascii "<body bgcolor=\"ffffff\">"
    ++ (ascii "<p>" ++ message ++ ascii "</p>")
    ++ ascii "<hr><em>TinyWebServer</em></body></html>"

/-- `sendError(code, message)`, up to its `shutdown()`. -/
def sendError (code : ℕ) (message : Bytes) : List Bytes :=
  startResponse code message
    ++ sendHeader (ascii "Content-length") (decimal (errorPage message).length)
    ++ endHeaders ++ [errorPage message]

end HttpContext
