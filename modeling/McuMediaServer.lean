import McuMediaServer.Base.Run
import McuMediaServer.Base.Bytes
import McuMediaServer.Base.Writer
import McuMediaServer.Base.Parser
import McuMediaServer.Base.OrderedMap
import McuMediaServer.Base.Tenancy
import McuMediaServer.Base.SortedMap
import McuMediaServer.BitStream
import McuMediaServer.Base.Bits
import McuMediaServer.BitReader
import McuMediaServer.BitRoundTrip
import McuMediaServer.Text.Receivers
import McuMediaServer.Tools
import McuMediaServer.Stun.Message
import McuMediaServer.Stun.RoundTrip
import McuMediaServer.Stun.Acceptance
import McuMediaServer.Video.Frame
import McuMediaServer.Video.H264Depacketizer
import McuMediaServer.Video.H264Frame
import McuMediaServer.Video.H264Decoder
import McuMediaServer.Video.RTPSmoother
import McuMediaServer.Video.H263Decoder
import McuMediaServer.Video.VP8Decoder
import McuMediaServer.Video.Safety
import McuMediaServer.Rtp.Packet
import McuMediaServer.Rtp.LostPackets
import McuMediaServer.WebSocket.Header
import McuMediaServer.WebSocket.Connection
import McuMediaServer.WebSocket.Frames
import McuMediaServer.WebSocket.Receive
import McuMediaServer.WebSocket.Send
import McuMediaServer.Amf.Utf8
import McuMediaServer.Amf.Data
import McuMediaServer.Amf.Parser
import McuMediaServer.Amf.RoundTrip
import McuMediaServer.Amf.Consumed
import McuMediaServer.Amf.Total
import McuMediaServer.Rtcp.Fields
import McuMediaServer.Rtp.Nack
import McuMediaServer.Rtcp.Packets
import McuMediaServer.Rtcp.Feedback
import McuMediaServer.Rtcp.Compound
import McuMediaServer.Rtcp.RoundTrip
import McuMediaServer.Rtcp.FeedbackRoundTrip
import McuMediaServer.Rtcp.Bitrate
import McuMediaServer.Rtcp.Safety
import McuMediaServer.Rtp.Buffer
import McuMediaServer.Rtp.Receive
import McuMediaServer.Rtp.Send
import McuMediaServer.Rtp.Datagram
import McuMediaServer.Rtp.Redundant
import McuMediaServer.Rtp.Report
import McuMediaServer.Rtp.FecDecoder
import McuMediaServer.Bfcp.Message
import McuMediaServer.Bfcp.FloorRequest
import McuMediaServer.Bfcp.Server
import McuMediaServer.Bfcp.Exclusion
import McuMediaServer.Bfcp.Changes
import McuMediaServer.Bfcp.Steps
import McuMediaServer.Bfcp.RequestMap
import McuMediaServer.Bfcp.Notifications
import McuMediaServer.Bfcp.Texts
import McuMediaServer.Bfcp.Errors
import McuMediaServer.Base.Blocks
import McuMediaServer.Audio.Mixer
import McuMediaServer.Audio.MinusOne
import McuMediaServer.MultiConf.Tokens
import McuMediaServer.Mcu.Conferences
import McuMediaServer.Bfcp.Reentrant
import McuMediaServer.MultiConf.Floors
import McuMediaServer.Base.Overwrite
import McuMediaServer.Mosaic.FrameScaler
import McuMediaServer.Mosaic.Slots
import McuMediaServer.Mosaic.Update
import McuMediaServer.Mosaic.Rectangles
import McuMediaServer.Mosaic.Isolation
import McuMediaServer.Rtmp.Media
import McuMediaServer.Rtmp.PipedStream
import McuMediaServer.Rtmp.PipedLaw
import McuMediaServer.Base.Subscriptions
import McuMediaServer.Jsr309.MediaSession
import McuMediaServer.Jsr309.Joins
import McuMediaServer.Jsr309.Lifetimes
import McuMediaServer.Jsr309.Orderly
import McuMediaServer.Broadcast.Streams
import McuMediaServer.Broadcast.Session
import McuMediaServer.Web.Conference
import McuMediaServer.Web.Accounting
import McuMediaServer.Web.Handlers
import McuMediaServer.Web.SlotMirror
import McuMediaServer.Base.Ring
import McuMediaServer.Fifo
import McuMediaServer.Acumulator
import McuMediaServer.WebSocket.Handshake
import McuMediaServer.WebSocket.Outgoing
import McuMediaServer.Amf.Utf8Cuts
import McuMediaServer.Mosaic.Composition
import McuMediaServer.Mosaic.Layout
import McuMediaServer.Bfcp.Connections
import McuMediaServer.Text.Erasure
import McuMediaServer.Text.Routing
import McuMediaServer.Json.Scanner
import McuMediaServer.Video.VP8Descriptor
import McuMediaServer.Video.Smoothing
import McuMediaServer.Video.VP8Encoder
import McuMediaServer.Video.AVCDescriptor
import McuMediaServer.Video.AVCFrame
import McuMediaServer.Video.RecVideo
import McuMediaServer.Mp4.Timeline
import McuMediaServer.Mp4.Text
import McuMediaServer.Video.SeqParameterSet
import McuMediaServer.Video.VlcCodes
import McuMediaServer.Rtp.RateControl
import McuMediaServer.Video.H263Encoder
import McuMediaServer.Mosaic.Overlay
import McuMediaServer.Text.Bridge
import McuMediaServer.Rtmp.Participant
import McuMediaServer.Broadcast.Registry
import McuMediaServer.Mosaic.PictureInPicture
import McuMediaServer.Video.H263Paquetizer
import McuMediaServer.Audio.Sidebars
import McuMediaServer.Vnc.Editor
import McuMediaServer.Vnc.PrivateView
import McuMediaServer.Http.Cpim
import McuMediaServer.Http.ContentTypes
import McuMediaServer.Sdp.Clone
import McuMediaServer.Web.Persistence
import McuMediaServer.Web.CodecChoice
