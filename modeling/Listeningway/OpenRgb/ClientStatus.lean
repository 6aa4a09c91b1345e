/- Listeningway/OpenRgb/ClientStatus
   source: third_party/Youda008-OpenRGB-cppSDK: include/OpenRGB/Client.hpp, src/Client.cpp
   digest: How a call of the OpenRGB client can end, and the texts for it. -/

import Mathlib.Data.Nat.Notation

set_option autoImplicit false
set_option relaxedAutoImplicit false

namespace Listeningway.OpenRgb

inductive ConnectStatus where
  | success
  | networkingInitFailed
  | alreadyConnected
  | hostNotResolved
  | connectFailed
  | requestVersionFailed
  | versionNotSupported
  | sendNameFailed
  | otherSystemError
  | unexpectedError
  deriving DecidableEq, Repr

def ConnectStatus.enumString : ConnectStatus → String
  | success => "The operation was successful."
  | networkingInitFailed =>
    "Operation failed because underlying networking system could not be initialized."
  | alreadyConnected => "Connect operation failed because the socket is already connected."
  | hostNotResolved => "The hostname you entered could not be resolved to IP address."
  | connectFailed =>
    "Could not connect to the target server, either it's down or the port is closed."
  | requestVersionFailed =>
    "Failed to send the client's protocol version or receive the server's protocol version"
  | versionNotSupported =>
    "The protocol version of the server is not supported. Please update the OpenRGB app."
  | sendNameFailed => "Failed to send the client name to the server."
  | otherSystemError => "Other system error."
  | unexpectedError => "Internal error of this library. Please create a github issue."

inductive RequestStatus where
  | success
  | notConnected
  | sendRequestFailed
  | connectionClosed
  | noReply
  | receiveError
  | invalidReply
  | unexpectedError
  deriving DecidableEq, Repr

def RequestStatus.enumString : RequestStatus → String
  | success => "The request was succesful."
  | notConnected => "Request failed because the client is not connected."
  | sendRequestFailed => "Failed to send the request message."
  | connectionClosed => "Server has closed the connection."
  | noReply => "No reply has arrived from the server in given timeout."
  | receiveError => "There has been some other error while trying to receive a reply."
  | invalidReply => "The reply from the server is invalid."
  | unexpectedError => "Internal error of this library. Please create a github issue."

inductive UpdateStatus where
  | upToDate
  | outOfDate
  | connectionClosed
  | unexpectedMessage
  | cantRestoreSocket
  | otherSystemError
  | unexpectedError
  deriving DecidableEq, Repr

end Listeningway.OpenRgb
