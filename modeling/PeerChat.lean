import PeerChat.TransitionProofs
import PeerChat.ThreadPoolProofs
import PeerChat.GroupStoreProofs
import PeerChat.RateLimitProofs
import PeerChat.PresenceRunProofs
import PeerChat.GroupRunProofs
import PeerChat.GroupHistoryProofs
import PeerChat.ChatPairProofs
import PeerChat.ClusterProofs
import PeerChat.ChatStoreProofs
import PeerChat.PathsAgreeProofs
import PeerChat.HistoryProofs
import PeerChat.JsonEncodeProofs
import PeerChat.PasswordHashProofs
import PeerChat.UserStoreProofs
import PeerChat.CredentialProofs
import PeerChat.AuthProofs
import PeerChat.AuthRunProofs
import PeerChat.JsRecordProofs
import PeerChat.WebStoreProofs
import PeerChat.StableSortProofs
import PeerChat.WebHistoryProofs
import PeerChat.WebFrameProofs
import PeerChat.WebReceivedProofs
import PeerChat.WebReadProofs
import PeerChat.WebSentProofs
import PeerChat.FanOutProofs
import PeerChat.RoutingProofs
import PeerChat.RoamingProofs
import PeerChat.CrossInstanceProofs
import PeerChat.MessagePathProofs
import PeerChat.SenderOrderProofs
import PeerChat.FrameProofs
import PeerChat.ReceiptProofs
import PeerChat.DispatchProofs
import PeerChat.ReplyProofs
import PeerChat.IsolationProofs
import PeerChat.StatusOrderProofs
import PeerChat.DeliveredProofs
import PeerChat.AtMostOnceProofs
import PeerChat.AtLeastOnceProofs
import PeerChat.DrainProofs
import PeerChat.DrainRecordProofs
import PeerChat.HubRunProofs
import PeerChat.HubRefinementProofs
import PeerChat.SubscriptionProofs
import PeerChat.WebSocketProofs
import PeerChat.WebReconnectProofs
import PeerChat.WebClientProofs
import PeerChat.WebAckProofs
import PeerChat.WebOutboundProofs
import PeerChat.WebStatusProofs
import PeerChat.WebSessionProofs
import PeerChat.WebLimitProofs
import PeerChat.WebSpellingProofs
import PeerChat.WebTypingProofs
import PeerChat.WebIndicatorProofs
import PeerChat.SystemFloodProofs
import PeerChat.SystemRestProofs
import PeerChat.SystemSessionProofs
import PeerChat.SystemWireProofs
import PeerChat.SystemCliProofs
import PeerChat.SystemVisitProofs
