import Gput.Library.ByteString
import Gput.Library.Decimal

/-!
# HTTP responses of the host

`build_response` and the responses the network layer answers with by itself.
Texts are the byte strings they are stored as.
-/

namespace Gput
namespace Http

open ByteString Decimal

def minGpuResponseSlotBytes : Nat := 256

/-- The header `build_response` writes. -/
def responseHeaders (status : UInt16) (reason contentType : List UInt8) (bodyLen : Nat)
    (backend : List UInt8) : List UInt8 :=
  ascii "HTTP/1.1 " ++ decimal status.toNat ++ ascii " " ++ reason ++ ascii "\r\n" ++
    (ascii "Content-Type: " ++ contentType ++ ascii "\r\n") ++
    (ascii "Content-Length: " ++ decimal bodyLen ++ ascii "\r\n") ++
    ascii "Server: gput\r\n" ++
    (ascii "X-Gput-Backend: " ++ backend ++ ascii "\r\n") ++
    ascii "\r\n"

/-- `build_response`. -/
def buildResponse (status : UInt16) (reason contentType body backend : List UInt8) :
    List UInt8 :=
  responseHeaders status reason contentType body.length backend ++ body

def textContentType : List UInt8 := ascii "text/plain; charset=utf-8"

/-- A response of the network layer. -/
def networkResponse (status : UInt16) (reason body : String) : List UInt8 :=
  buildResponse status (ascii reason) textContentType (ascii body) (ascii "network")

def requestTimeoutResponse : List UInt8 :=
  networkResponse 408 "Request Timeout" "request timeout\n"

def payloadTooLargeResponse : List UInt8 :=
  networkResponse 413 "Content Too Large" "request too large\n"

def serviceUnavailableResponse : List UInt8 :=
  networkResponse 503 "Service Unavailable" "server overloaded\n"

def internalServerErrorResponse : List UInt8 :=
  networkResponse 500 "Internal Server Error" "processor failure\n"

def incompleteRequestResponse : List UInt8 :=
  networkResponse 400 "Bad Request" "incomplete request\n"

end Http
end Gput
