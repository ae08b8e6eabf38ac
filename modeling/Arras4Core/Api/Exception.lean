/-
  Arras4Core.Api.Exception

  The exceptions the modelled functions throw, one constructor per C++ class,
  with the text `what()` returns where the class carries one.
-/

namespace Arras4Core.Api

/-- A thrown exception. -/
inductive Exception
  /-- `impl::KeyError` -/
  | keyError (what : String)
  /-- `impl::InternalError` -/
  | internalError (what : String)
  /-- `api::MessageFormatError` -/
  | messageFormatError (what : String)
  /-- `network::FramingError` -/
  | framingError (what : String)
  /-- `network::OutOfMemoryError` -/
  | outOfMemoryError (what : String)
  /-- `network::InvalidParameterError` -/
  | invalidParameterError (what : String)
  /-- `network::PeerException`, other than the one below -/
  | peerException (what : String)
  /-- `network::PeerDisconnectException`: the stream ended. -/
  | peerDisconnectException
  /-- `impl::ShutdownException`: a queue or an endpoint was shut down. -/
  | shutdownException
  /-- `client::SessionError` -/
  | sessionError (what : String)
  /-- `Json::LogicError`: a `Json::Value` was used as a type it is not. -/
  | jsonLogicError
  /-- Anything thrown by user code (`serialize`, `handleMessage`, ..). -/
  | userException
  /-- Not a throw: an access through a null pointer or past the end of an array,
      after which the language promises nothing. -/
  | undefinedBehaviour
  deriving DecidableEq

end Arras4Core.Api
