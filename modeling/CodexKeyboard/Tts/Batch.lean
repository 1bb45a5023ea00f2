import CodexKeyboard.Audio.Eiad
import CodexKeyboard.Tts.Wire

/-! The speech request over HTTP: `post_batch_tts_request` on the first connection and
    `get_batch_tts_audio` on a second one, which fetches the audio the answer points at. -/

namespace CodexKeyboard.Tts

open Schemes.Transact Schemes.Bytes Summary Store Audio

def ttsModel : String := "qwen-audio-3.0-tts-flash"
def ttsRequestTarget : String := "/api/v1/services/audio/tts/SpeechSynthesizer"
def ttsAudioHost : String := "dashscope-result-bj.oss-cn-beijing.aliyuncs.com"
def maxTtsPcmBytes : Nat := ttsSampleRate * maxTtsSeconds * 2
def maxTtsWavBytes : Nat := maxTtsPcmBytes + 44
def maxTtsResponseBytes : Nat := 128 * 1024

structure HandshakeTarget where
  host : String
  port : Nat
  requestTarget : String
  deriving DecidableEq, Repr

/-- `HandshakeTarget::tts`. -/
def HandshakeTarget.tts : HandshakeTarget := ⟨"dashscope.aliyuncs.com", 443, ttsRequestTarget⟩

structure TtsRequest where
  text : String
  voice : String
  instructions : String
  deriving DecidableEq, Repr

inductive TransportRoute where
  | direct | httpsProxy
  deriving DecidableEq, Repr

structure TtsReceipt where
  model : String
  voice : String
  sampleRate : Nat
  samples : Nat
  characters : Option Nat
  transport : TransportRoute
  attempts : Nat
  deriving DecidableEq, Repr

structure TtsAudio where
  pcm : List UInt8
  receipt : TtsReceipt
  deriving DecidableEq, Repr

/-! ### The answer to the POST -/

def validateBatchTtsHeader (libs : Libs) (header : List UInt8) : Except AttemptFailure Nat := do
  let parsed ← orThrow ambiguousAfterCommit (libs.parseResponse header)
  ensure (parsed.version = 1) ambiguousAfterCommit
  if parsed.code = 200 then contentLength parsed
  else if parsed.code = 401 ∨ parsed.code = 403 then .error (.terminal .rejected)
  else if parsed.code = 429 then .error (.terminal .rateLimited)
  else if 500 ≤ parsed.code ∧ parsed.code ≤ 599 then .error (.terminal .unavailable)
  else .error (.terminal .protocol)

def readBatchTtsResponse (libs : Libs) : Connection → Except AttemptFailure (List UInt8) :=
  readAnswer (validateBatchTtsHeader libs) maxTtsResponseBytes ambiguousAfterCommit 4096

def postBatchTtsRequest (libs : Libs) (stream : Connection) : Except AttemptFailure (List UInt8) := do
  -- a partial TLS write may already have submitted the billable request
  let stream ← orThrow ambiguousAfterCommit stream.write
  readBatchTtsResponse libs stream

def stripStart (start text : List Char) : Option (List Char) :=
  if start.isPrefixOf text then some (text.drop start.length) else none

def parseBatchTtsAudioUrl (url : String) : Except AttemptFailure HandshakeTarget := do
  let target ← orThrow ambiguousAfterCommit
    ((stripStart ("https://" ++ ttsAudioHost).toList url.toList).or
      (stripStart ("http://" ++ ttsAudioHost).toList url.toList))
  ensure (target.head? = some '/' ∧ (String.ofList target).utf8ByteSize ≤ 16 * 1024 ∧
    target.all (fun c => decide (c.val < 0x80)) ∧ '#' ∉ target ∧
    ¬ target.any (fun c => isControl c || c == ' ')) ambiguousAfterCommit
  .ok ⟨ttsAudioHost, 443, String.ofList target⟩

def parseBatchTtsResponse (libs : Libs) (response : List UInt8) :
    Except AttemptFailure (HandshakeTarget × Option Nat) := do
  let value ← orThrow ambiguousAfterCommit (libs.parseJson response)
  ensure ((value.pointer ["output", "finish_reason"]).bind Json.asStr = some "stop") ambiguousAfterCommit
  let url ← orThrow ambiguousAfterCommit ((value.pointer ["output", "audio", "url"]).bind Json.asStr)
  let target ← parseBatchTtsAudioUrl url
  .ok (target, (value.pointer ["usage", "characters"]).bind Json.asU64)

/-! ### The audio -/

/-- `split(';').next` and `trim`, of a value that is UTF-8. -/
def mediaType (value : List UInt8) : Option String :=
  (String.fromUTF8? ⟨value.toArray⟩).map fun text =>
    String.ofList ((((text.toList.takeWhile (· ≠ ';')).dropWhile isWhitespace).reverse.dropWhile
      isWhitespace).reverse)

def validateBatchTtsAudioHeader (libs : Libs) (header : List UInt8) : Except AttemptFailure Nat := do
  let parsed ← orThrow ambiguousAfterCommit (libs.parseResponse header)
  ensure (parsed.version = 1 ∧ parsed.code = 200) ambiguousAfterCommit
  let contentType ← orThrow ambiguousAfterCommit (uniqueHeaderValue parsed "content-type")
  let contentType ← orThrow ambiguousAfterCommit (contentType.bind mediaType)
  ensure (contentType = "audio/wav" ∨ contentType = "audio/x-wav") ambiguousAfterCommit
  contentLength parsed

/-- What the second connection of an attempt meets. -/
structure AudioAnswers where
  platform : Except VerificationError Unit := .ok ()
  connect : Except VerificationError TransportRoute := .ok .direct
  tls : Except VerificationError Connection := .ok {}

def getBatchTtsAudio (libs : Libs) (answers : AudioAnswers) : Except AttemptFailure (List UInt8) := do
  let _ ← answers.connect.mapError fun _ => ambiguousAfterCommit
  let stream ← answers.tls.mapError fun _ => ambiguousAfterCommit
  let stream ← orThrow ambiguousAfterCommit stream.write
  readAnswer (validateBatchTtsAudioHeader libs) maxTtsWavBytes (.terminal .audioLimit) 8192 stream

/-- `prepare_tts_audio_platform`. -/
def prepareTtsAudioPlatform (answers : AudioAnswers) : Except AttemptFailure Unit :=
  answers.platform.mapError AttemptFailure.transport

/-- `decode_wav`. -/
def decodeWav (wav : List UInt8) : Except AudioError (List UInt8) := do
  ensure (44 ≤ wav.length ∧ slice wav 0 4 = magicRiff ∧ slice wav 8 8 = magicWavefmt ∧
    readU32 wav 16 = 16 ∧ readU16 wav 20 = 1 ∧ readU16 wav 22 = 1 ∧ readU32 wav 24 = ttsSampleRate ∧
    readU32 wav 28 = ttsSampleRate * 2 ∧ readU16 wav 32 = 2 ∧ readU16 wav 34 = 16 ∧
    slice wav 36 4 = magicData) .invalidWav
  let streamingSentinel := readU32 wav 4 = 0x7fffffbf ∧ readU32 wav 40 = 0x7fffff9b
  ensure (streamingSentinel ∨ (44 + readU32 wav 40 = wav.length ∧ wav.length - 8 < 2 ^ 32 ∧
    readU32 wav 4 = wav.length - 8)) .invalidWav
  let _ ← (validatePcm (wav.drop 44)).mapError fun _ => AudioError.invalidWav
  .ok (wav.drop 44)

/-- `synthesize_http_once`. -/
def synthesizeHttpOnce (libs : Libs) (request : TtsRequest) (transport : TransportRoute)
    (stream : Connection) (audio : AudioAnswers) : Except AttemptFailure TtsAudio := do
  let response ← postBatchTtsRequest libs stream
  let (_, characters) ← parseBatchTtsResponse libs response
  prepareTtsAudioPlatform audio
  let wav ← getBatchTtsAudio libs audio
  let pcm ← (decodeWav wav).mapError fun _ => ambiguousAfterCommit
  ensure (pcm.length / 2 < 2 ^ 64) (.terminal .audioLimit)
  .ok ⟨pcm, ⟨ttsModel, request.voice, ttsSampleRate, pcm.length / 2, characters, transport, 1⟩⟩

end CodexKeyboard.Tts
